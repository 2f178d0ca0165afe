/-!
Comments: from a `#` to the end of its line.

Comments are taken out before anything else is looked at, so a `#` inside a text literal starts
one too.  Line breaks stay, and with them the number of every line.

Taking out comments is a pass over the characters that knows one thing, whether it is in a comment.
What has been taken out leaves no gap, and a line break behind it ends a word all the same.
-/

namespace Scriptlet

/-- The character that starts a comment. -/
def commentMark : Char := '#'

/-- The text without its comments; `commented` says whether it starts inside one. -/
def eraseCommentsFrom (commented : Bool) : List Char → List Char
  | [] => []
  | c :: cs =>
    if c = '\n' then '\n' :: eraseCommentsFrom false cs
    else if commented ∨ c = commentMark then eraseCommentsFrom true cs
    else c :: eraseCommentsFrom false cs

/-- The text without its comments. -/
def eraseComments (source : List Char) : List Char := eraseCommentsFrom false source

/-- The lines keep their numbers: no line break is lost. -/
theorem count_eraseCommentsFrom (commented : Bool) (s : List Char) :
    (eraseCommentsFrom commented s).count '\n' = s.count '\n' := by
  induction s generalizing commented with
  | nil => rfl
  | cons c cs ih =>
    by_cases hc : c = '\n'
    · simp [eraseCommentsFrom, hc, ih]
    · by_cases hm : commented ∨ c = commentMark
      · simp [eraseCommentsFrom, hc, hm, ih]
      · simp [eraseCommentsFrom, hc, hm, ih]

/-- No mark is left. -/
theorem commentMark_notMem_eraseCommentsFrom (commented : Bool) (s : List Char) :
    commentMark ∉ eraseCommentsFrom commented s := by
  induction s generalizing commented with
  | nil => simp [eraseCommentsFrom]
  | cons c cs ih =>
    have hbreak : commentMark ≠ '\n' := by decide
    by_cases hc : c = '\n'
    · simp [eraseCommentsFrom, hc, ih, hbreak]
    · by_cases hm : commented ∨ c = commentMark
      · simp [eraseCommentsFrom, hc, hm, ih]
      · have hne : ¬ commentMark = c := fun e => hm (Or.inr e.symm)
        simp [eraseCommentsFrom, hc, hm, ih, hne]

/-- Text without a mark is left alone. -/
theorem eraseComments_of_notMem {s : List Char} (h : commentMark ∉ s) : eraseComments s = s := by
  unfold eraseComments
  induction s with
  | nil => rfl
  | cons c cs ih =>
    simp only [List.mem_cons, not_or] at h
    have hne : ¬ c = commentMark := fun e => h.1 e.symm
    by_cases hc : c = '\n' <;> simp [eraseCommentsFrom, hc, hne, ih h.2]

end Scriptlet
