/-!
Classes of characters, given by ranges of code points.

A class is a list of closed ranges; a character belongs to it when its code point lies in one of
them.  The classes of the library (blanks here, letters in `Text.Letter`, graphic characters in
`Text.Graphic`) are tables of this form, so that membership is one definition with one lemma.

Blanks are the characters with the Unicode property White_Space.  They surround a number without
changing it (`Number.read?`) and the name of a program file (`Entry.ofText`), and outside texts only
five of them separate tokens; every other blank in token position is an error.
-/

namespace Scriptlet.Text

/-- Does the code point of `c` lie in one of the closed ranges? -/
def inRanges (ranges : List (Nat × Nat)) (c : Char) : Bool :=
  ranges.any fun r => r.1 ≤ c.toNat && c.toNat ≤ r.2

/-- Membership in a class, read off its table. -/
theorem inRanges_iff {ranges : List (Nat × Nat)} {c : Char} :
    inRanges ranges c = true ↔ ∃ r ∈ ranges, r.1 ≤ c.toNat ∧ c.toNat ≤ r.2 := by
  simp [inRanges]

/-! ## Blanks -/

/-- The ranges of the White_Space property, in increasing order. -/
def blankRanges : List (Nat × Nat) :=
  [(0x9, 0xd), (0x20, 0x20), (0x85, 0x85), (0xa0, 0xa0), (0x1680, 0x1680), (0x2000, 0x200a),
   (0x2028, 0x2029), (0x202f, 0x202f), (0x205f, 0x205f), (0x3000, 0x3000)]

/-- Is `c` a blank? -/
def isBlank (c : Char) : Bool := inRanges blankRanges c

/-- The text without its leading and trailing blanks. -/
def trim (s : List Char) : List Char :=
  ((s.dropWhile isBlank).reverse.dropWhile isBlank).reverse

example : trim [' ', '\t', '5', ' ', '7', '\n'] = ['5', ' ', '7'] := by decide

end Scriptlet.Text
