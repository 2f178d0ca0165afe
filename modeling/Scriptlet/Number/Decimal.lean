import Scriptlet.Number.Binary

/-!
Decimal numerals, the numbers they denote and the doubles nearest to them.

A decimal is a whole number of digits scaled by a power of ten, `digits × 10 ^ exponent`.
`Decimal.read?` reads an unsigned numeral: digits with at most one point among them, at least one
digit in all, and optionally `e` or `E` with a signed exponent.  Nothing may follow.  Every step
splits the text with `takeWhile` and `dropWhile`, so no character is skipped.

A decimal is written in one of two ways.  The positional form has no exponent, whatever the size of
the number; a number below one has a zero before the point.  The scientific form has one digit before
the point, the point only if more digits follow, and the exponent after an `e` with a minus sign where
it is negative.

As a ratio of whole numbers of units a decimal is rounded to a double once, by `Binary.nearestRank`,
so the result is correctly rounded.  Powers of ten that put the number beyond every double, on either
side, are recognised before they are computed: a numeral is short and its exponent may be huge.
-/

namespace Scriptlet

/-- The number `digits × 10 ^ exponent`. -/
structure Decimal where
  digits : Nat
  exponent : Int
  deriving DecidableEq, Repr

namespace Decimal

/-- The value of a run of decimal digits, most significant first. -/
def digitsValue (s : List Char) : Nat :=
  s.foldl (fun n c => 10 * n + (c.toNat - '0'.toNat)) 0

/-- A non-empty run of digits and nothing else. -/
def wholeNumber? (s : List Char) : Option Nat :=
  if s ≠ [] ∧ s.all Char.isDigit then some (digitsValue s) else none

/-- A whole number with an optional sign. -/
def signedNumber? : List Char → Option Int
  | '-' :: s => (wholeNumber? s).map fun n => -(n : Int)
  | '+' :: s => (wholeNumber? s).map fun n => (n : Int)
  | s => (wholeNumber? s).map fun n => (n : Int)

/-- The power of ten written after the digits: none at all, or a mark and a signed number. -/
def exponent? : List Char → Option Int
  | [] => some 0
  | c :: s => if c = 'e' ∨ c = 'E' then signedNumber? s else none

/-- The digits after the point, if there is a point, and what follows them. -/
def splitFraction : List Char → List Char × List Char
  | '.' :: s => (s.takeWhile Char.isDigit, s.dropWhile Char.isDigit)
  | s => ([], s)

/-- Reads an unsigned numeral that takes up the whole text. -/
def read? (s : List Char) : Option Decimal :=
  let whole := s.takeWhile Char.isDigit
  let (fraction, rest) := splitFraction (s.dropWhile Char.isDigit)
  if whole = [] ∧ fraction = [] then none
  else (exponent? rest).map fun e => ⟨digitsValue (whole ++ fraction), e - fraction.length⟩

example : read? ['2', '.', '5', '0'] = some ⟨250, -2⟩ := by decide
example : read? ['.', '5', 'e', '-', '3'] = some ⟨5, -4⟩ := by decide
example : read? ['5', '.'] = some ⟨5, 0⟩ := by decide
example : read? ['.'] = none ∧ read? ['1', 'e'] = none ∧ read? ['1', '2', 'a'] = none := by decide

/-- A run of digits is taken whole. -/
theorem takeWhile_digits {s : List Char} (hd : ∀ c ∈ s, c.isDigit = true) :
    s.takeWhile Char.isDigit = s ∧ s.dropWhile Char.isDigit = [] := by
  induction s with
  | nil => simp
  | cons c s ih =>
    have hc := hd c (by simp)
    have hs := ih fun d h => hd d (by simp [h])
    simp [hc, hs]

/-- A run of digits and nothing else is a numeral; it denotes its own value. -/
theorem read?_digits {s : List Char} (hne : s ≠ []) (hd : ∀ c ∈ s, c.isDigit = true) :
    read? s = some ⟨digitsValue s, 0⟩ := by
  simp [read?, takeWhile_digits hd, splitFraction, exponent?, hne]

/-! ## Writing -/

/-- The digits of a whole number, most significant first. -/
def digitChars (n : Nat) : List Char := Nat.toDigits 10 n

/-- The digits `s` with the last `places` of them behind a point. -/
def insertPoint (s : List Char) (places : Nat) : List Char :=
  if s.length ≤ places then '0' :: '.' :: (List.replicate (places - s.length) '0' ++ s)
  else s.take (s.length - places) ++ '.' :: s.drop (s.length - places)

/-- The decimal without an exponent. -/
def positional (x : Decimal) : List Char :=
  if 0 ≤ x.exponent then digitChars x.digits ++ List.replicate x.exponent.toNat '0'
  else insertPoint (digitChars x.digits) (-x.exponent).toNat

/-- The exponent of the first digit. -/
def leadingExponent (x : Decimal) : Int := x.exponent + (digitChars x.digits).length - 1

/-- A whole number with a minus sign where it is negative. -/
def signedChars (n : Int) : List Char :=
  if n < 0 then '-' :: digitChars n.natAbs else digitChars n.natAbs

/-- The decimal with one digit before the point and an exponent. -/
def scientific (x : Decimal) : List Char :=
  match digitChars x.digits with
  | [] => []
  | [d] => d :: 'e' :: signedChars x.leadingExponent
  | d :: ds => d :: '.' :: (ds ++ 'e' :: signedChars x.leadingExponent)

example : positional ⟨25, -1⟩ = ['2', '.', '5'] ∧ positional ⟨5, 2⟩ = ['5', '0', '0'] := by decide
example : positional ⟨5, -3⟩ = ['0', '.', '0', '0', '5'] := by decide
example : scientific ⟨15, 20⟩ = ['1', '.', '5', 'e', '2', '1'] := by decide
example : scientific ⟨1, -5⟩ = ['1', 'e', '-', '5'] := by decide

/-! ## The nearest double -/

/-- The rank of the magnitude nearest to the decimal. -/
def nearestRank (x : Decimal) : Nat :=
  if x.digits = 0 then 0
  -- at least 10 ^ 310, beyond the greatest double
  else if 310 ≤ x.exponent then Binary.infinityRank
  -- below 10 ^ -330, since a number of k bits is below 10 ^ k
  else if x.exponent + (x.digits.log2 + 1 : Nat) < -330 then 0
  else if 0 ≤ x.exponent then
    Binary.nearestRank ((x.digits * Nat.pow 10 x.exponent.toNat) <<< 1074) 1
  else
    Binary.nearestRank (x.digits <<< 1074) (Nat.pow 10 (-x.exponent).toNat)

/-- The double nearest to the decimal, with the given sign. -/
def toFloat (x : Decimal) (negative : Bool) : Float := Binary.ofRank negative x.nearestRank

example : (⟨1, 23⟩ : Decimal).nearestRank = Binary.rankOf 1e23 := by decide +kernel
example : (⟨5, -324⟩ : Decimal).nearestRank = 1 ∧ (⟨2, -324⟩ : Decimal).nearestRank = 0 := by
  decide +kernel
example : (⟨1, 400⟩ : Decimal).nearestRank = Binary.infinityRank := by decide

end Decimal
end Scriptlet
