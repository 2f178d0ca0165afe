/-!
Binary floating-point magnitudes as whole numbers.

The sign apart, a double is given by its *rank*, the lower 63 bits of its pattern.  Ranks are in
the order of the magnitudes: rank 0 is zero, `infinityRank` is infinity, and every pattern above
it is no number.  Every finite magnitude is a whole number of *units*, one unit being the least
positive magnitude `2 ^ -1074`; `units` gives that number, so exact arithmetic on doubles is
arithmetic on `Nat`.

`nearestRank num den` goes back: it is the rank of the magnitude nearest to `num / den` units, a
tie going to the even mantissa, and `infinityRank` from the overflow threshold on.

Of the arithmetic of the language only two operations are not those of doubles themselves.  The
remainder is exact: both operands are whole numbers of units, and so is what is left over, with the
sign of the dividend.  The maximum is the right operand unless the left one is greater, so that a
value that is no number on the left is passed over.
-/

namespace Scriptlet
namespace Binary

/-- Bits of the stored mantissa. -/
def mantissaBits : Nat := 52

/-- The worth of the leading bit of a mantissa, which is not stored. -/
def leadingBit : Nat := 1 <<< mantissaBits

/-- The rank of infinity. -/
def infinityRank : Nat := 2047 * leadingBit

/-- The power of two that one step of the mantissa of rank `r` is worth, in units. -/
def scale (r : Nat) : Nat := r / leadingBit - 1

/-- The mantissa of rank `r`, its leading bit included.  A rank below that bit is the mantissa. -/
def mantissa (r : Nat) : Nat :=
  if r < leadingBit then r else leadingBit + r % leadingBit

/-- The magnitude of rank `r` in units of `2 ^ -1074`. -/
def units (r : Nat) : Nat := mantissa r <<< scale r

/-- A rank is its mantissa and its scale, packed. -/
theorem rank_eq (r : Nat) : scale r * leadingBit + mantissa r = r := by
  have hdiv := Nat.div_add_mod r leadingBit
  unfold scale mantissa
  split
  · next h => simp [Nat.div_eq_of_lt h]
  · next h =>
    have hpos : 0 < r / leadingBit := Nat.div_pos (Nat.le_of_not_lt h) (by decide)
    obtain ⟨k, hk⟩ := Nat.exists_eq_succ_of_ne_zero (Nat.ne_of_gt hpos)
    rw [hk] at hdiv ⊢
    simp only [Nat.succ_eq_add_one, Nat.add_sub_cancel] at hdiv ⊢
    rw [Nat.mul_add, Nat.mul_comm _ k] at hdiv
    omega

/-- The quotient rounded to the nearest whole number, a tie going to the even one. -/
def roundHalfEven (num den : Nat) : Nat :=
  let q := num / den
  let rest := 2 * (num % den)
  if rest < den then q
  else if den < rest then q + 1
  else q + q % 2

/-- The rank of the magnitude nearest to `num / den` units. -/
def nearestRank (num den : Nat) : Nat :=
  let k := (num / den).log2 - mantissaBits
  min (k * leadingBit + roundHalfEven num (den <<< k)) infinityRank

/-! ## Doubles -/

/-- The worth of the sign bit of a pattern. -/
def signBit : Nat := 1 <<< 63

/-- The rank of a double. -/
def rankOf (x : Float) : Nat := x.toBits.toNat % signBit

/-- Is the sign bit set?  It is for `-0`. -/
def isNegative (x : Float) : Bool := signBit ≤ x.toBits.toNat

/-- The double with the given sign and rank. -/
def ofRank (negative : Bool) (rank : Nat) : Float :=
  Float.ofBits (UInt64.ofNat (if negative then signBit + rank else rank))

/-- Positive or negative infinity. -/
def infinity (negative : Bool) : Float := ofRank negative infinityRank

/-- The value that is no number. -/
def notANumber : Float := ofRank false (infinityRank + leadingBit / 2)

example : units 0 = 0 ∧ units 1 = 1 ∧ units leadingBit = leadingBit := by decide
example : nearestRank (1 <<< 1074) 1 = rankOf 1.0 := by decide +kernel
example : nearestRank (1 <<< 1074) 10 = rankOf 0.1 := by decide +kernel

end Binary

/-! ## Arithmetic -/

namespace Number

open Binary (rankOf isNegative infinityRank)

/-- The remainder of truncated division, with the sign of the dividend. -/
def remainder (x y : Float) : Float :=
  let a := rankOf x
  let b := rankOf y
  if infinityRank ≤ a ∨ infinityRank < b ∨ b = 0 then Binary.notANumber
  else if b = infinityRank then x
  else Binary.ofRank (isNegative x) (Binary.nearestRank (Binary.units a % Binary.units b) 1)

/-- `x` raised to the power `y`. -/
def power (x y : Float) : Float := Float.pow x y

/-- The left operand if it is greater, else the right one. -/
def maximum (x y : Float) : Float := if y < x then x else y

example : remainder 7.5 (-2.0) = 1.5 ∧ remainder (-7.5) 2.0 = -1.5 := by decide +kernel

end Number
end Scriptlet
