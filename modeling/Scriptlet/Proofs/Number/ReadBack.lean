import Mathlib
import Scriptlet.Number.Text
import Scriptlet.Proofs.Number.Bits
import Scriptlet.Proofs.Number.Grammar
import Scriptlet.Proofs.Number.Rounding

/-!
Numbers read back from their text.

A decimal that is written positionally is read as the same number.  With a point the digits behind it
are counted and the decimal comes back as it was; without one its zeros come back as digits.  Together
with the rounding of the shortest decimal this says that the text of a number that is finite and not
negative denotes this number and no other.

A decimal is its digits and a power of ten.  Written positionally it has a point among its digits, or
before them with zeros in between, or no point and zeros behind.  In the first two cases the reader
counts the digits behind the point and finds the same power; in the third it finds more digits and the
power zero.  That is another decimal of the same size, and rounding does not tell them apart
(`nearestRank_whole`).

Main statement: `Number.read?_plain`.
-/

namespace Scriptlet
namespace Decimal

/-! ## Digits -/

theorem isDigit_digitChars {n : Nat} {c : Char} (h : c ∈ digitChars n) : c.isDigit = true :=
  Nat.isDigit_of_mem_toDigits (by decide) (by decide) h

theorem digitChars_ne_nil (n : Nat) : digitChars n ≠ [] := Nat.toDigits_ne_nil

theorem digitsValue_digitChars (n : Nat) : digitsValue (digitChars n) = n :=
  Nat.ofDigitChars_ten_toDigits

/-- Zeros behind the digits scale the number. -/
theorem digitsValue_append_zeros (s : List Char) (n : Nat) :
    digitsValue (s ++ List.replicate n '0') = digitsValue s * 10 ^ n := by
  have hfold := @Nat.ofDigitChars_append 10 s (List.replicate n '0') 0
  rw [Nat.ofDigitChars_replicate_zero, Nat.mul_comm] at hfold
  exact hfold

/-- Zeros before the digits do nothing. -/
theorem digitsValue_zeros_append (s : List Char) (n : Nat) :
    digitsValue (List.replicate n '0' ++ s) = digitsValue s := by
  have hfold := @Nat.ofDigitChars_append 10 (List.replicate n '0') s 0
  rw [Nat.ofDigitChars_replicate_zero, Nat.mul_zero] at hfold
  exact hfold

/-- A numeral with a point in it. -/
theorem read?_point {whole fraction : List Char} (hne : whole ≠ [])
    (hwhole : ∀ c ∈ whole, c.isDigit = true) (hfraction : ∀ c ∈ fraction, c.isDigit = true) :
    read? (whole ++ '.' :: fraction) =
      some ⟨digitsValue (whole ++ fraction), -fraction.length⟩ := by
  have hdigits : Digits (whole ++ fraction) := by
    constructor
    · intro hnil
      exact hne (List.append_eq_nil_iff.1 hnil).1
    · intro c hc
      rcases List.mem_append.1 hc with hc | hc
      · exact hwhole c hc
      · exact hfraction c hc
  have hnumeral := Numeral.mk (Significand.pointed whole fraction) hdigits Exponent.absent
  rw [List.append_nil, Int.zero_sub] at hnumeral
  exact read?_iff.2 hnumeral

/-! ## Positional decimals -/

/-- Without a point the zeros are digits. -/
theorem read?_positional_whole {x : Decimal} (h : 0 ≤ x.exponent) :
    read? x.positional = some ⟨x.digits * 10 ^ x.exponent.toNat, 0⟩ := by
  unfold positional
  rw [if_pos h, read?_digits, digitsValue_append_zeros, digitsValue_digitChars]
  · intro hnil
    exact digitChars_ne_nil _ (List.append_eq_nil_iff.1 hnil).1
  · intro c hc
    rcases List.mem_append.1 hc with hc | hc
    · exact isDigit_digitChars hc
    · rw [List.eq_of_mem_replicate hc]
      decide

/-- What a point is put into: digits before it and as many as there are places behind it. -/
theorem insertPoint_eq {s : List Char} (places : Nat) (hs : ∀ c ∈ s, c.isDigit = true) :
    ∃ whole fraction, insertPoint s places = whole ++ '.' :: fraction ∧ whole ≠ [] ∧
      (∀ c ∈ whole, c.isDigit = true) ∧ (∀ c ∈ fraction, c.isDigit = true) ∧
      digitsValue (whole ++ fraction) = digitsValue s ∧ fraction.length = places := by
  unfold insertPoint
  split
  · -- more places than digits: zeros come before them, and one before the point
    next hlong =>
    refine ⟨['0'], List.replicate (places - s.length) '0' ++ s, rfl, by simp,
      List.forall_mem_singleton.2 (by decide), ?_, ?_, ?_⟩
    · intro c hc
      rcases List.mem_append.1 hc with hc | hc
      · rw [List.eq_of_mem_replicate hc]
        decide
      · exact hs c hc
    · have hone := digitsValue_zeros_append (List.replicate (places - s.length) '0' ++ s) 1
      rw [digitsValue_zeros_append s] at hone
      exact hone
    · rw [List.length_append, List.length_replicate]
      omega
  · next hshort =>
    refine ⟨s.take (s.length - places), s.drop (s.length - places), rfl, ?_, ?_, ?_, ?_, ?_⟩
    · intro hnil
      have hlength := congrArg List.length hnil
      rw [List.length_take, List.length_nil] at hlength
      omega
    · exact fun c hc => hs c (List.mem_of_mem_take hc)
    · exact fun c hc => hs c (List.mem_of_mem_drop hc)
    · rw [List.take_append_drop]
    · rw [List.length_drop]
      omega

/-- With a point the decimal itself comes back. -/
theorem read?_positional_point {x : Decimal} (h : x.exponent < 0) :
    read? x.positional = some x := by
  obtain ⟨whole, fraction, heq, hne, hwhole, hfraction, hvalue, hlength⟩ :=
    insertPoint_eq (-x.exponent).toNat fun c hc => isDigit_digitChars (n := x.digits) hc
  have hexponent : -(fraction.length : Int) = x.exponent := by omega
  rw [positional, if_neg (by omega), heq, read?_point hne hwhole hfraction, hvalue,
    digitsValue_digitChars, hexponent]

/-- Written as a whole number, a decimal is rounded as it was. -/
theorem nearestRank_whole {x : Decimal} (h : 0 ≤ x.exponent) (hhigh : x.exponent < 310) :
    nearestRank ⟨x.digits * 10 ^ x.exponent.toNat, 0⟩ = x.nearestRank := by
  have hpow : 10 ^ x.exponent.toNat ≠ 0 := Nat.ne_of_gt (Nat.pow_pos (Nat.succ_pos 9))
  unfold nearestRank
  by_cases hzero : x.digits = 0
  · rw [if_pos hzero, if_pos (by rw [hzero, Nat.zero_mul])]
  · rw [if_neg hzero, if_neg (Nat.mul_ne_zero hzero hpow)]
    dsimp only
    rw [if_neg (by omega), if_neg (by omega), if_pos (Int.le_refl 0), if_neg (by omega),
      if_neg (by omega), if_pos h]
    rw [show Nat.pow 10 (Int.toNat 0) = 1 from rfl, Nat.mul_one]
    rfl

/-- **What is written is read.**  The text of a decimal denotes a decimal that is rounded alike. -/
theorem read?_positional {x : Decimal} (h : x.exponent < 310) :
    ∃ y, read? x.positional = some y ∧ y.nearestRank = x.nearestRank := by
  by_cases hexponent : 0 ≤ x.exponent
  · exact ⟨_, read?_positional_whole hexponent, nearestRank_whole hexponent h⟩
  · exact ⟨x, read?_positional_point (by omega), rfl⟩

/-- No decimal is beyond infinity. -/
theorem nearestRank_le (x : Decimal) : x.nearestRank ≤ Binary.infinityRank := by
  unfold nearestRank
  split
  · exact Nat.zero_le _
  split
  · exact Nat.le_refl _
  split
  · exact Nat.zero_le _
  split
  · exact Nat.min_le_right _ _
  · exact Nat.min_le_right _ _

/-- A positional decimal is made of digits and points, and starts with a digit. -/
theorem positional_chars (x : Decimal) :
    (∃ c cs, x.positional = c :: cs ∧ c.isDigit = true) ∧
      ∀ c ∈ x.positional, c.isDigit = true ∨ c = '.' := by
  have hdigits : ∀ {c}, c ∈ digitChars x.digits → c.isDigit = true := isDigit_digitChars
  unfold positional
  split
  · -- zeros behind the digits
    constructor
    · cases hchars : digitChars x.digits with
      | nil => exact absurd hchars (digitChars_ne_nil _)
      | cons c cs => exact ⟨c, _, rfl, hdigits (hchars ▸ List.mem_cons_self)⟩
    · intro c hc
      rcases List.mem_append.1 hc with hc | hc
      · exact Or.inl (hdigits hc)
      · rw [List.eq_of_mem_replicate hc]
        exact Or.inl (by decide)
  · -- or a point between them
    obtain ⟨whole, fraction, heq, hne, hwhole, hfraction, -, -⟩ :=
      insertPoint_eq (-x.exponent).toNat fun c hc => hdigits hc
    rw [heq]
    constructor
    · cases whole with
      | nil => exact absurd rfl hne
      | cons c cs => exact ⟨c, _, rfl, hwhole c List.mem_cons_self⟩
    · intro c hc
      rcases List.mem_append.1 hc with hc | hc
      · exact Or.inl (hwhole c hc)
      · rcases List.mem_cons.1 hc with rfl | hc
        · exact Or.inr rfl
        · exact Or.inl (hfraction c hc)

end Decimal

namespace Number

open Binary

/-- The text of a number that is finite and not negative is the positional form of a decimal that is
rounded to it. -/
theorem toList_plain {x : Float} (hsign : isNegative x = false) (hfinite : rankOf x < infinityRank) :
    ∃ d : Decimal, (plain x).toList = d.positional ∧ d.exponent < 310 ∧ d.nearestRank = rankOf x := by
  unfold plain write
  rw [hsign, String.toList_ofList]
  rw [if_neg (Nat.lt_asymm hfinite), if_neg (Nat.ne_of_lt hfinite), if_neg Bool.false_ne_true]
  by_cases hzero : rankOf x = 0
  · rw [if_pos hzero, hzero]
    exact ⟨⟨0, 0⟩, rfl, by decide, rfl⟩
  · have hpos : 0 < rankOf x := Nat.pos_of_ne_zero hzero
    rw [if_neg hzero, List.nil_append]
    exact ⟨Decimal.shortest (rankOf x), rfl, ((Decimal.has_shortest hpos).size hpos hfinite).2.1,
      Decimal.nearestRank_shortest hpos hfinite⟩

/-- **The text of a number denotes it.** -/
theorem read?_plain {x : Float} (hsign : isNegative x = false) (hfinite : rankOf x < infinityRank) :
    ∃ d, Decimal.read? (plain x).toList = some d ∧ d.toFloat false = x := by
  obtain ⟨d, htext, hexponent, hrank⟩ := toList_plain hsign hfinite
  obtain ⟨y, hread, hy⟩ := Decimal.read?_positional hexponent
  refine ⟨y, ?_, ?_⟩
  · rw [htext, hread]
  · rw [Decimal.toFloat, hy, hrank, ofRank_rankOf hsign]

end Number
end Scriptlet
