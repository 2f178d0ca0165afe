import Mathlib.Data.List.TakeWhile

/-!
A list up to its first separator.

What is left when elements have been taken as long as possible starts with one that is not to be taken
(`eq_false_of_mem_head?_dropWhile`): so gaps and words end.  What is to be taken is found again in
front of such an element (`takeWhile_append_of_stop`).

A text literal goes up to the next quote and a line of input up to the next line break.  Both are
found by taking elements as long as they are not the separator.  What is taken contains none
(`notMem_takeWhile_ne`), and what is left is nothing or starts with one (`dropWhile_ne_cases`).  The
other way round, something without a separator is found again in front of one (`takeWhile_ne_append`).

They are apart from their uses because there are three of them: the scanner, the literals of a source
text and the lines of the input.
-/

namespace Scriptlet

variable {α : Type}

/-- What is left starts with an element that is not to be taken. -/
theorem eq_false_of_mem_head?_dropWhile {p : α → Bool} {l : List α} :
    ∀ c ∈ (l.dropWhile p).head?, p c = false := by
  intro c hc
  have hhead := List.head?_dropWhile_not p l
  rw [hc] at hhead
  simpa using hhead

/-- What is to be taken is taken whole, up to the first element that is not. -/
theorem takeWhile_append_of_stop {p : α → Bool} {l rest : List α} (hl : ∀ a ∈ l, p a = true)
    (hrest : ∀ a ∈ rest.head?, p a = false) :
    (l ++ rest).takeWhile p = l ∧ (l ++ rest).dropWhile p = rest := by
  rw [List.takeWhile_append_of_pos hl, List.dropWhile_append_of_pos hl]
  cases rest with
  | nil => exact ⟨List.append_nil l, rfl⟩
  | cons a rest =>
    have ha : ¬ p a = true := by
      rw [hrest a rfl]
      exact Bool.false_ne_true
    rw [List.takeWhile_cons_of_neg ha, List.dropWhile_cons_of_neg ha]
    exact ⟨List.append_nil l, rfl⟩

variable [DecidableEq α] {a : α} {l body : List α}

theorem notMem_takeWhile_ne : a ∉ l.takeWhile (· ≠ a) := by
  intro hmem
  have hne := List.all_eq_true.1 List.all_takeWhile a hmem
  simp at hne

/-- There is no separator, or the list is split at the first. -/
theorem dropWhile_ne_cases (a : α) (l : List α) :
    l.dropWhile (· ≠ a) = [] ∧ a ∉ l ∨
      ∃ rest, l.dropWhile (· ≠ a) = a :: rest ∧ l = l.takeWhile (· ≠ a) ++ a :: rest := by
  have hsplit := List.takeWhile_append_dropWhile (p := (· ≠ a)) (l := l)
  cases hdrop : l.dropWhile (· ≠ a) with
  | nil =>
    rw [hdrop, List.append_nil] at hsplit
    have hnone : a ∉ l.takeWhile (· ≠ a) := notMem_takeWhile_ne
    rw [hsplit] at hnone
    exact Or.inl ⟨rfl, hnone⟩
  | cons b rest =>
    have hnot := eq_false_of_mem_head?_dropWhile (p := (· ≠ a)) (l := l)
    rw [hdrop] at hnot
    obtain rfl : b = a := by simpa using hnot b rfl
    exact Or.inr ⟨rest, rfl, by rw [← hdrop, hsplit]⟩

/-- What contains no separator is found again in front of one. -/
theorem takeWhile_ne_append (h : a ∉ body) (rest : List α) :
    (body ++ a :: rest).takeWhile (· ≠ a) = body ∧
      (body ++ a :: rest).dropWhile (· ≠ a) = a :: rest := by
  have hbody : ∀ b ∈ body, decide (b ≠ a) = true := by
    intro b hb
    apply decide_eq_true
    rintro rfl
    exact h hb
  refine takeWhile_append_of_stop hbody ?_
  rintro b ⟨rfl⟩
  exact decide_eq_false (not_not_intro rfl)

end Scriptlet
