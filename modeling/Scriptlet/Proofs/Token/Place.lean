import Mathlib.Data.List.Basic
import Scriptlet.Token.Comment

/-!
Where the characters of a source text stand.

Comments are taken out before the text is read, so the scanner does not see the places of the source.
Still every character that it sees stands at one: a place is outside comments if no mark stands before
it on its line (`InComment`), and the characters at the places outside comments are the text that is
read (`charsAt_outside`).

Every line break is outside comments.  So as many of them stand before a place in the source as are
among the characters that are read before the one at that place, and the line of a place is found by
counting what is read (`lineOf_eq`).

Places are counted in the source with its comments, and a text is a list of characters, so a list of
places stands for a part of the text.  The definitions are recursions that know whether they have
begun in a comment (`InCommentFrom`, `outsideFrom`), as taking out comments does.  What is meant by
them is said without recursion, by the mark that stands before a place on its line.
-/

namespace Scriptlet

/-- The line of a place in the source.  Lines are ended by line breaks and counted from one. -/
def lineOf (source : List Char) (i : Nat) : Nat := 1 + (source.take i).count '\n'

/-- A mark stands at the place or before it, and no line break from there up to the place. -/
def InComment (source : List Char) (i : Nat) : Prop :=
  ∃ j ≤ i, source[j]? = some commentMark ∧ ∀ k ≤ i, j ≤ k → source[k]? ≠ some '\n'

instance (source : List Char) (i : Nat) : Decidable (InComment source i) :=
  decidable_of_iff
    (∃ j < i + 1, source[j]? = some commentMark ∧ ∀ k < i + 1, j ≤ k → source[k]? ≠ some '\n')
    (by simp only [InComment, Nat.lt_succ_iff])

/-- The places outside comments, in order. -/
def outside (source : List Char) : List Nat :=
  (List.range source.length).filter fun i => ¬ InComment source i

/-- The characters at some places. -/
def charsAt (source : List Char) (places : List Nat) : List Char := places.filterMap (source[·]?)

@[simp] theorem charsAt_append (source : List Char) (places others : List Nat) :
    charsAt source (places ++ others) = charsAt source places ++ charsAt source others :=
  List.filterMap_append

/-! ## The characters outside comments

The recursion on the text carries along whether it has begun in a comment. -/

/-- The place is in a comment, or in one that the text starts in. -/
def InCommentFrom (commented : Bool) (source : List Char) (i : Nat) : Prop :=
  InComment source i ∨ commented = true ∧ ∀ k ≤ i, source[k]? ≠ some '\n'

instance (commented : Bool) (source : List Char) (i : Nat) :
    Decidable (InCommentFrom commented source i) :=
  inferInstanceAs
    (Decidable (InComment source i ∨ commented = true ∧ ∀ k ≤ i, source[k]? ≠ some '\n'))

variable {source : List Char} {c : Char} {commented : Bool} {i : Nat}

/-- The first character is in a comment if one has begun or begins there; a line break never is. -/
theorem inCommentFrom_zero :
    InCommentFrom commented (c :: source) 0 ↔ c ≠ '\n' ∧ (commented = true ∨ c = commentMark) := by
  unfold InCommentFrom InComment
  constructor
  · rintro (⟨j, hj, hmark, hbreak⟩ | ⟨hcommented, hbreak⟩)
    · obtain rfl : j = 0 := by omega
      exact ⟨fun hc => hbreak 0 (Nat.le_refl 0) (Nat.le_refl 0) (by rw [hc]; rfl),
        Or.inr (Option.some.inj hmark)⟩
    · exact ⟨fun hc => hbreak 0 (Nat.le_refl 0) (by rw [hc]; rfl), Or.inl hcommented⟩
  · rintro ⟨hc, hstarts⟩
    have hbreak : ∀ k ≤ 0, (c :: source)[k]? ≠ some '\n' := by
      intro k hk
      obtain rfl : k = 0 := by omega
      exact fun h => hc (Option.some.inj h)
    rcases hstarts with hcommented | hmark
    · exact Or.inr ⟨hcommented, hbreak⟩
    · exact Or.inl ⟨0, Nat.le_refl 0, congrArg some hmark, fun k hk _ => hbreak k hk⟩

/-- Behind the first character the text starts in a comment if that one is in it. -/
theorem inCommentFrom_succ :
    InCommentFrom commented (c :: source) (i + 1) ↔
      InCommentFrom (decide (c ≠ '\n' ∧ (commented = true ∨ c = commentMark))) source i := by
  -- no line break up to `i + 1`: the first character is none, and there is none up to `i`
  have hall : (∀ k ≤ i + 1, (c :: source)[k]? ≠ some '\n') ↔
      c ≠ '\n' ∧ ∀ k ≤ i, source[k]? ≠ some '\n' := by
    constructor
    · intro h
      refine ⟨fun hc => h 0 (Nat.zero_le _) (by rw [hc]; rfl), fun k hk => ?_⟩
      exact h (k + 1) (Nat.succ_le_succ hk)
    · rintro ⟨hc, h⟩ k hk
      cases k with
      | zero => exact fun he => hc (Option.some.inj he)
      | succ k => exact h k (Nat.le_of_succ_le_succ hk)
  unfold InCommentFrom
  rw [hall, decide_eq_true_iff]
  -- the mark before `i + 1` is the first character, or stands behind it
  constructor
  · rintro (⟨j, hj, hmark, hbreak⟩ | ⟨hcommented, hc, hbreak⟩)
    · cases j with
      | zero =>
        obtain ⟨hc, hbreak⟩ := hall.1 fun k hk => hbreak k hk (Nat.zero_le k)
        exact Or.inr ⟨⟨hc, Or.inr (Option.some.inj hmark)⟩, hbreak⟩
      | succ j =>
        refine Or.inl ⟨j, Nat.le_of_succ_le_succ hj, hmark, fun k hk hjk => ?_⟩
        exact hbreak (k + 1) (Nat.succ_le_succ hk) (Nat.succ_le_succ hjk)
    · exact Or.inr ⟨⟨hc, Or.inl hcommented⟩, hbreak⟩
  · rintro (⟨j, hj, hmark, hbreak⟩ | ⟨⟨hc, hstarts⟩, hbreak⟩)
    · refine Or.inl ⟨j + 1, Nat.succ_le_succ hj, hmark, fun k hk hjk => ?_⟩
      cases k with
      | zero => omega
      | succ k => exact hbreak k (Nat.le_of_succ_le_succ hk) (Nat.le_of_succ_le_succ hjk)
    · rcases hstarts with hcommented | hmark
      · exact Or.inr ⟨hcommented, hc, hbreak⟩
      · exact Or.inl ⟨0, Nat.zero_le _, congrArg some hmark, fun k hk _ => hall.2 ⟨hc, hbreak⟩ k hk⟩

/-- The places outside comments, where the text may start in one. -/
def outsideFrom (commented : Bool) (source : List Char) : List Nat :=
  (List.range source.length).filter fun i => ¬ InCommentFrom commented source i

/-- Places that are one further on, in a text that has one more character before. -/
theorem charsAt_map_succ (places : List Nat) :
    charsAt (c :: source) (places.map Nat.succ) = charsAt source places := by
  unfold charsAt
  rw [List.filterMap_map]
  rfl

/-- The first character is outside comments unless the text starts in one there. -/
theorem outsideFrom_cons :
    outsideFrom commented (c :: source) =
      (if c ≠ '\n' ∧ (commented = true ∨ c = commentMark) then [] else [0]) ++
        (outsideFrom (decide (c ≠ '\n' ∧ (commented = true ∨ c = commentMark))) source).map
          Nat.succ := by
  unfold outsideFrom
  rw [List.length_cons, List.range_succ_eq_map, List.filter_cons, List.filter_map]
  have htail : ((fun i => decide ¬ InCommentFrom commented (c :: source) i) ∘ Nat.succ) =
      fun i => decide ¬ InCommentFrom
        (decide (c ≠ '\n' ∧ (commented = true ∨ c = commentMark))) source i := by
    funext i
    exact decide_eq_decide.2 (not_congr inCommentFrom_succ)
  rw [htail]
  by_cases hc : c ≠ '\n' ∧ (commented = true ∨ c = commentMark)
  · rw [if_pos hc, if_neg (by simpa using inCommentFrom_zero.2 hc), List.nil_append]
  · rw [if_neg hc, if_pos (by simpa using fun h => hc (inCommentFrom_zero.1 h))]
    rfl

/-- The characters at the places outside comments are the text without comments. -/
theorem charsAt_outsideFrom (commented : Bool) (source : List Char) :
    charsAt source (outsideFrom commented source) = eraseCommentsFrom commented source := by
  induction source generalizing commented with
  | nil => rfl
  | cons c source ih =>
    rw [outsideFrom_cons, charsAt_append, charsAt_map_succ, ih, eraseCommentsFrom]
    by_cases hbreak : c = '\n'
    · simp [hbreak, charsAt]
    · by_cases hstarts : commented = true ∨ c = commentMark
      · simp [hbreak, hstarts, charsAt]
      · simp [hbreak, hstarts, charsAt]

/-- **The text that is read** consists of the characters outside comments. -/
theorem charsAt_outside (source : List Char) :
    charsAt source (outside source) = eraseComments source := by
  rw [eraseComments, ← charsAt_outsideFrom]
  unfold outside outsideFrom
  congr 2
  funext i
  refine decide_eq_decide.2 (not_congr ?_)
  simp [InCommentFrom]

/-! ## Lines -/

/-- No line break is in a comment. -/
theorem not_inComment_of_lineBreak (h : source[i]? = some '\n') : ¬ InComment source i := by
  rintro ⟨j, hj, -, hbreak⟩
  exact hbreak i (Nat.le_refl i) hj h

/-- Before a place stand as many line breaks as outside comments before it. -/
theorem count_charsAt_range (source : List Char) (i : Nat) :
    (charsAt source ((List.range i).filter fun j => ¬ InComment source j)).count '\n' =
      (source.take i).count '\n' := by
  induction i with
  | zero => rfl
  | succ i ih =>
    rw [List.range_succ, List.filter_append, charsAt_append, List.count_append, ih, List.take_add_one,
      List.count_append]
    congr 1
    by_cases hcomment : InComment source i
    · -- what is not counted is no line break
      have hnone : '\n' ∉ source[i]?.toList := fun hmem =>
        not_inComment_of_lineBreak (Option.mem_toList.1 hmem) hcomment
      rw [List.filter_cons_of_neg (by simpa using hcomment), List.count_eq_zero_of_not_mem hnone]
      rfl
    · rw [List.filter_cons_of_pos (by simpa using hcomment)]
      cases hc : source[i]? <;> simp [charsAt, hc]

/-- The places before a given one. -/
theorem eq_filter_range_of_append {p : Nat → Bool} {n : Nat} {before after : List Nat}
    (h : (List.range n).filter p = before ++ i :: after) : before = (List.range i).filter p := by
  obtain ⟨first, second, hrange, hfirst, hsecond⟩ := List.filter_eq_append_iff.1 h
  obtain ⟨skipped, rest, rfl, hskipped, -, -⟩ := List.filter_eq_cons_iff.1 hsecond
  rw [← List.append_assoc] at hrange
  -- `i` stands where it belongs in the range, so what is before it is the range up to `i`
  have hlt : (first ++ skipped).length < n := by
    have hlengths := congrArg List.length hrange
    rw [List.length_range, List.length_append, List.length_cons] at hlengths
    omega
  have hlength : (first ++ skipped).length = i := by
    have hget := List.getElem?_range hlt
    rw [hrange, List.getElem?_append_right (Nat.le_refl _), Nat.sub_self] at hget
    exact (Option.some.inj hget).symm
  have htake : List.range i = first ++ skipped := by
    have hfront := congrArg (List.take i) hrange
    rwa [List.take_range, Nat.min_eq_left (hlength ▸ Nat.le_of_lt hlt), List.take_left' hlength]
      at hfront
  have hnone : skipped.filter p = [] := List.filter_eq_nil_iff.2 hskipped
  rw [htake, List.filter_append, hnone, List.append_nil, hfirst]

/-- **The line of a place** is found by counting the line breaks that are read before it. -/
theorem lineOf_eq {before after : List Nat} (h : outside source = before ++ i :: after) :
    lineOf source i = 1 + (charsAt source before).count '\n' := by
  rw [eq_filter_range_of_append h, count_charsAt_range]
  rfl

/-- A character stands at every place outside comments. -/
theorem exists_charsAt_singleton (h : i ∈ outside source) : ∃ c, charsAt source [i] = [c] := by
  have hlt : i < source.length := List.mem_range.1 (List.mem_of_mem_filter h)
  exact ⟨source[i], List.filterMap_cons_some (List.getElem?_eq_getElem hlt)⟩

/-- There is one character at each place outside comments. -/
theorem length_charsAt {places : List Nat} (h : ∀ i ∈ places, i ∈ outside source) :
    (charsAt source places).length = places.length := by
  induction places with
  | nil => rfl
  | cons i places ih =>
    obtain ⟨hi, hplaces⟩ := List.forall_mem_cons.1 h
    obtain ⟨c, hc⟩ := exists_charsAt_singleton hi
    rw [← List.singleton_append, charsAt_append, hc, List.length_append, ih hplaces,
      List.length_append]
    rfl

end Scriptlet
