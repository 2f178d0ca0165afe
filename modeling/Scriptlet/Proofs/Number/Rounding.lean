import Mathlib
import Scriptlet.Number.Shortest

/-!
The shortest decimal of a double reads back as the double.

Between them are two pieces of arithmetic that know nothing of each other: `Binary.nearestRank`
rounds a ratio to 53 bits, and `Decimal.shortest` looks for short decimals in a gap.  What joins them
is that the gap of a rank is made of ratios that are rounded to this rank
(`nearestRank_of_contains`).  In units of one step of the mantissa `m` the gap reaches half a step
to either side, so `m` is the whole number nearest to the ratio; and where the step is halved below
a power of two it reaches a quarter of a step, which is half a step of what is below.

A rank is a mantissa of 53 bits and a scale, by which it is shifted.  Everything is kept in whole
numbers.  A ratio is a numerator with a denominator, a decimal is its digits with a power of ten on
one side or the other, and both are compared with the ends of a gap after being multiplied out.  Ends
come as multiples of a quarter of a step, so that half steps and quarter steps are whole numbers.  An
end belongs to its gap exactly if the mantissa is even, which is what rounding to even needs.

There are three steps.

* **Rounding a ratio** whose nearest whole number of steps is known (`roundHalfEven_eq`), and from it
  to a rank, where the bound on the mantissa says that the scale has been guessed right.
* **A decimal in a gap** is a ratio in it.  But `Decimal.nearestRank` first asks whether the decimal
  is so large or so small that it need not be multiplied out.  No decimal in the gap of a finite rank
  is: `exponent_lt_of_size` and `length_ge_of_size` bound its exponent, by comparing powers of ten
  with powers of two.
* **What the search finds** is in the gap, whether it is a multiple of some power of ten or, if none
  was found, the exact decimal of the rank.

Main statement: `Decimal.nearestRank_shortest`, for every finite rank but zero.
-/

namespace Scriptlet
namespace Binary

/-! ## Mantissa and scale -/

theorem leadingBit_mul (k : Nat) : leadingBit * 2 ^ k = 2 ^ (52 + k) := (Nat.pow_add 2 52 k).symm

/-- Powers of two grow. -/
theorem two_pow_le (m k : Nat) (h : m ≤ k) : 2 ^ m ≤ 2 ^ k := Nat.pow_le_pow_right Nat.two_pos h

theorem ten_pow_le (m k : Nat) (h : m ≤ k) : 10 ^ m ≤ 10 ^ k :=
  Nat.pow_le_pow_right (Nat.succ_pos 9) h

theorem leadingBit_pos : 0 < leadingBit := by decide

theorem mantissa_lt (r : Nat) : mantissa r < 2 * leadingBit := by
  have hmod := Nat.mod_lt r leadingBit_pos
  unfold mantissa
  split <;> omega

theorem mantissa_pos {r : Nat} (h : 0 < r) : 0 < mantissa r := by
  have hpos := leadingBit_pos
  unfold mantissa
  split <;> omega

/-- A scaled mantissa has its leading bit. -/
theorem leadingBit_le_mantissa {r : Nat} (h : 0 < scale r) : leadingBit ≤ mantissa r := by
  unfold scale at h
  have hlt : ¬ r < leadingBit := by
    intro hlt
    rw [Nat.div_eq_of_lt hlt] at h
    omega
  rw [mantissa, if_neg hlt]
  exact Nat.le_add_right _ _

theorem scale_le {r : Nat} (h : r < infinityRank) : scale r ≤ 2045 := by
  have hdiv : r / leadingBit < 2047 := Nat.div_lt_of_lt_mul (by rwa [Nat.mul_comm])
  unfold scale
  omega

/-! ## Rounding to a whole number -/

/-- The whole number that is no more than a half away, the even one of two. -/
theorem roundHalfEven_eq {num den m : Nat} (hden : 0 < den) (hlow : 2 * (m * den) ≤ 2 * num + den)
    (hhigh : 2 * num ≤ 2 * (m * den) + den)
    (htie : m % 2 = 1 → 2 * (m * den) < 2 * num + den ∧ 2 * num < 2 * (m * den) + den) :
    roundHalfEven num den = m := by
  have hsplit := Nat.div_add_mod num den
  have hrest := Nat.mod_lt num hden
  unfold roundHalfEven
  generalize num / den = q at hsplit ⊢
  generalize num % den = rest at hsplit hrest ⊢
  -- the quotient is `m`, or one less
  have hle : q ≤ m := by
    refine Nat.le_of_not_lt fun hlt => ?_
    have hmul := Nat.mul_le_mul_right den hlt
    rw [Nat.mul_comm q, Nat.succ_mul] at hmul
    omega
  have hge : m ≤ q + 1 := by
    refine Nat.le_of_not_lt fun hlt => ?_
    have hmul := Nat.mul_le_mul_right den hlt
    rw [Nat.succ_mul, Nat.succ_mul, Nat.mul_comm q] at hmul
    omega
  have hcases : q = m ∨ m = q + 1 := by omega
  dsimp only
  rcases hcases with rfl | rfl
  · rw [Nat.mul_comm q] at hlow hhigh htie
    split
    · rfl
    split
    · omega
    · omega
  · rw [Nat.add_mul, Nat.mul_comm q] at hlow hhigh htie
    split
    · omega
    split
    · rfl
    · omega

/-! ## Rounding to a rank -/

/-- The scale is found by the length of the quotient. -/
theorem nearestRank_of_scale {num den k m : Nat} (hden : 0 < den)
    (hlow : k = 0 ∨ leadingBit * (den * 2 ^ k) ≤ num) (hhigh : num < 2 * leadingBit * (den * 2 ^ k))
    (hround : roundHalfEven num (den * 2 ^ k) = m) :
    nearestRank num den = min (k * leadingBit + m) infinityRank := by
  have hscale : (num / den).log2 - mantissaBits = k := by
    have hlt : num / den < 2 ^ (52 + k + 1) := by
      refine Nat.div_lt_of_lt_mul ?_
      calc num < 2 * leadingBit * (den * 2 ^ k) := hhigh
        _ = den * 2 ^ (52 + k + 1) := by
          rw [Nat.pow_succ, ← leadingBit_mul]
          ac_rfl
    show (num / den).log2 - 52 = k
    -- a ratio without a leading bit has scale 0, however short it is
    rcases hlow with rfl | hlow
    · have hlog : (num / den).log2 ≤ 52 := by
        by_cases hzero : num / den = 0
        · rw [hzero]
          decide
        · exact Nat.le_of_lt_succ ((Nat.log2_lt hzero).2 hlt)
      omega
    · have hge : 2 ^ (52 + k) ≤ num / den := by
        refine (Nat.le_div_iff_mul_le hden).2 ?_
        calc 2 ^ (52 + k) * den = leadingBit * (den * 2 ^ k) := by
              rw [← leadingBit_mul]
              ac_rfl
          _ ≤ num := hlow
      have hzero : num / den ≠ 0 := Nat.ne_of_gt (Nat.lt_of_lt_of_le (Nat.two_pow_pos _) hge)
      have hlog : (num / den).log2 = 52 + k := (Nat.log2_eq_iff hzero).2 ⟨hge, hlt⟩
      omega
  unfold nearestRank
  dsimp only
  rw [hscale, Nat.shiftLeft_eq, hround]

end Binary

namespace Decimal

open Binary

/-! ## Gaps

The ratios that are rounded to a rank. -/

/-- The ratio `num / den`, in quarters of a unit, lies in the gap. -/
def Gap.Contains (g : Gap) (num den : Nat) : Prop :=
  g.before (g.low * den) num = true ∧ g.before num (g.high * den) = true

/-- An end counts where the gap is closed. -/
theorem Gap.before_iff {g : Gap} {a b : Nat} :
    g.before a b = true ↔ a ≤ b ∧ (g.closed = false → a < b) := by
  unfold Gap.before
  cases g.closed
  · simpa using Nat.le_of_lt
  · simp

/-- How far the gap of a rank reaches down, in quarters of a step. -/
def margin (r : Nat) : Nat := if mantissa r = leadingBit then 1 else 2

/-- The gap reaches down half a step or a quarter of one. -/
theorem margin_bounds (r : Nat) : 1 ≤ margin r ∧ margin r ≤ 2 := by
  unfold margin
  split <;> omega

/-- The lower end, with the margin put back. -/
theorem Gap.low_add {r : Nat} (hpos : 0 < r) :
    (Gap.ofRank r).low + margin r * 2 ^ scale r = 4 * mantissa r * 2 ^ scale r := by
  have hm := mantissa_pos hpos
  have hmargin : (if mantissa r = leadingBit then 2 ^ scale r else 2 * 2 ^ scale r) =
      margin r * 2 ^ scale r := by
    unfold margin
    split
    · rw [Nat.one_mul]
    · rfl
  have hle : margin r * 2 ^ scale r ≤ 4 * mantissa r * 2 ^ scale r := by
    have hmargin := margin_bounds r
    exact Nat.mul_le_mul_right _ (by omega)
  simp only [Gap.ofRank, Nat.one_shiftLeft]
  rw [hmargin]
  exact Nat.sub_add_cancel hle

/-- The upper end is half a step up. -/
theorem Gap.high_eq (r : Nat) :
    (Gap.ofRank r).high = 4 * mantissa r * 2 ^ scale r + 2 * 2 ^ scale r := by
  simp only [Gap.ofRank, Nat.one_shiftLeft]

/-- What lies in the gap of a rank, in steps of its mantissa.  The ends count if this is even. -/
theorem Gap.Contains.bounds {r num den : Nat} (hpos : 0 < r) (h : (Gap.ofRank r).Contains num den) :
    (4 * (mantissa r * (den * 2 ^ scale r)) ≤ num + margin r * (den * 2 ^ scale r) ∧
      num ≤ 4 * (mantissa r * (den * 2 ^ scale r)) + 2 * (den * 2 ^ scale r)) ∧
    (mantissa r % 2 = 1 →
      4 * (mantissa r * (den * 2 ^ scale r)) < num + margin r * (den * 2 ^ scale r) ∧
      num < 4 * (mantissa r * (den * 2 ^ scale r)) + 2 * (den * 2 ^ scale r)) := by
  obtain ⟨hlow, hhigh⟩ := h
  rw [Gap.before_iff] at hlow hhigh
  -- both ends, multiplied by the denominator
  have hlowEq : (Gap.ofRank r).low * den + margin r * (den * 2 ^ scale r) =
      4 * (mantissa r * (den * 2 ^ scale r)) := by
    calc (Gap.ofRank r).low * den + margin r * (den * 2 ^ scale r)
        = ((Gap.ofRank r).low + margin r * 2 ^ scale r) * den := by
          rw [Nat.add_mul]
          ac_rfl
      _ = 4 * mantissa r * 2 ^ scale r * den := by rw [Gap.low_add hpos]
      _ = 4 * (mantissa r * (den * 2 ^ scale r)) := by ac_rfl
  have hhighEq : (Gap.ofRank r).high * den =
      4 * (mantissa r * (den * 2 ^ scale r)) + 2 * (den * 2 ^ scale r) := by
    rw [Gap.high_eq, Nat.add_mul]
    ac_rfl
  have hclosed : mantissa r % 2 = 1 → (Gap.ofRank r).closed = false := by
    intro hodd
    simp [Gap.ofRank, hodd]
  rw [hhighEq] at hhigh
  refine ⟨⟨by omega, hhigh.1⟩, fun hodd => ⟨?_, hhigh.2 (hclosed hodd)⟩⟩
  have hstrict := hlow.2 (hclosed hodd)
  omega

/-- Below a power of two the scale is one less, and the mantissa is rounded up to twice its leading
bit. -/
theorem nearestRank_below_power {r num den : Nat} (hden : 0 < den) (hscale : 0 < scale r)
    (hnum : num < leadingBit * (den * 2 ^ scale r))
    (hlow : 4 * (mantissa r * (den * 2 ^ scale r)) ≤ 4 * num + margin r * (den * 2 ^ scale r)) :
    Binary.nearestRank num den = min r infinityRank := by
  have hrank := rank_eq r
  have hstep : 0 < den * 2 ^ scale r := Nat.mul_pos hden (Nat.two_pow_pos _)
  have hle : margin r * (den * 2 ^ scale r) ≤ 2 * (den * 2 ^ scale r) :=
    Nat.mul_le_mul_right _ (margin_bounds r).2
  have hpower : mantissa r = leadingBit := by
    refine Nat.le_antisymm (Nat.le_of_not_lt fun hlt => ?_) (leadingBit_le_mantissa hscale)
    have hmul := Nat.mul_le_mul_right (den * 2 ^ scale r) hlt
    rw [Nat.succ_mul] at hmul
    omega
  have hquarter : margin r = 1 := if_pos hpower
  obtain ⟨k, hk⟩ := Nat.exists_eq_succ_of_ne_zero (Nat.ne_of_gt hscale)
  -- from here on in half steps, which are the steps of the scale that the ratio has
  have hhalf : den * 2 ^ scale r = 2 * (den * 2 ^ k) := by
    rw [hk, Nat.pow_succ]
    ac_rfl
  have hmove : leadingBit * (2 * (den * 2 ^ k)) = 2 * (leadingBit * (den * 2 ^ k)) :=
    Nat.mul_left_comm _ _ _
  rw [hpower, hquarter, hhalf, hmove] at hlow
  rw [hhalf, hmove] at hnum
  rw [hhalf] at hstep
  have hone : den * 2 ^ k ≤ leadingBit * (den * 2 ^ k) := Nat.le_mul_of_pos_left _ leadingBit_pos
  have hassoc : 2 * leadingBit * (den * 2 ^ k) = 2 * (leadingBit * (den * 2 ^ k)) :=
    Nat.mul_assoc _ _ _
  have hround : roundHalfEven num (den * 2 ^ k) = 2 * leadingBit := by
    apply roundHalfEven_eq (by omega)
    · rw [hassoc]
      omega
    · rw [hassoc]
      omega
    · intro hodd
      omega
  rw [nearestRank_of_scale hden (Or.inr (by omega)) (by omega) hround]
  rw [hk, hpower] at hrank
  have hsum : k * leadingBit + 2 * leadingBit = r := by
    have hsucc := Nat.succ_mul k leadingBit
    omega
  rw [hsum]

/-- **Rounding meets the gap.**  Every ratio in the gap of a rank is rounded to this rank. -/
theorem nearestRank_of_contains {r num den : Nat} (hpos : 0 < r) (hfinite : r < infinityRank)
    (hden : 0 < den) (h : (Gap.ofRank r).Contains (4 * num) den) :
    Binary.nearestRank num den = r := by
  obtain ⟨⟨hlow, hhigh⟩, htie⟩ := h.bounds hpos
  have hmin : min r infinityRank = r := Nat.min_eq_left (Nat.le_of_lt hfinite)
  have hstep : 0 < den * 2 ^ scale r := Nat.mul_pos hden (Nat.two_pow_pos _)
  have hle : margin r * (den * 2 ^ scale r) ≤ 2 * (den * 2 ^ scale r) :=
    Nat.mul_le_mul_right _ (margin_bounds r).2
  by_cases hbelow : 0 < scale r ∧ num < leadingBit * (den * 2 ^ scale r)
  · rw [nearestRank_below_power hden hbelow.1 hbelow.2 hlow, hmin]
  · -- the ratio has the scale of the rank, and its mantissa is the nearest whole number
    have hround : roundHalfEven num (den * 2 ^ scale r) = mantissa r := by
      apply roundHalfEven_eq hstep (by omega) (by omega)
      intro hodd
      obtain ⟨hlow', hhigh'⟩ := htie hodd
      omega
    have hleast : scale r = 0 ∨ leadingBit * (den * 2 ^ scale r) ≤ num := by
      by_cases hscale : scale r = 0
      · exact Or.inl hscale
      · exact Or.inr (Nat.le_of_not_lt fun hlt => hbelow ⟨Nat.pos_of_ne_zero hscale, hlt⟩)
    have hgreatest : num < 2 * leadingBit * (den * 2 ^ scale r) := by
      have hmul : (mantissa r + 1) * (den * 2 ^ scale r) ≤ 2 * leadingBit * (den * 2 ^ scale r) :=
        Nat.mul_le_mul_right _ (mantissa_lt r)
      rw [Nat.add_mul] at hmul
      omega
    rw [nearestRank_of_scale hden hleast hgreatest hround, rank_eq, hmin]

/-! ## Decimals -/

/-- The decimal lies in the gap. -/
def Gap.Has (g : Gap) (x : Decimal) : Prop :=
  g.Contains ((x.digits * 10 ^ x.exponent.toNat) <<< 1076) (10 ^ (-x.exponent).toNat)

/-- A decimal whose size is recognised neither as too great nor as too small is rounded as a ratio. -/
theorem nearestRank_eq {x : Decimal} (hdigits : x.digits ≠ 0) (hhigh : x.exponent < 310)
    (hlow : -330 ≤ x.exponent + (x.digits.log2 + 1 : Nat)) :
    x.nearestRank = Binary.nearestRank ((x.digits * 10 ^ x.exponent.toNat) <<< 1074)
      (10 ^ (-x.exponent).toNat) := by
  unfold nearestRank
  rw [if_neg hdigits, if_neg (by omega), if_neg (by omega)]
  split
  · next h =>
    rw [show (-x.exponent).toNat = 0 by omega]
    rfl
  · next h =>
    rw [show x.exponent.toNat = 0 by omega, Nat.pow_zero, Nat.mul_one]
    rfl

/-- The gap of a finite rank reaches neither down to zero nor up to `2 ^ 1026`. -/
theorem Gap.Contains.size {r num den : Nat} (hpos : 0 < r) (hfinite : r < infinityRank)
    (hden : 0 < den) (h : (Gap.ofRank r).Contains num den) :
    2 * den ≤ num ∧ num < den * 2 ^ (2045 + 55) := by
  obtain ⟨⟨hlow, hhigh⟩, -⟩ := h.bounds hpos
  have hm := mantissa_pos hpos
  have hstep : den ≤ den * 2 ^ scale r := Nat.le_mul_of_pos_right _ (Nat.two_pow_pos _)
  have hone : 1 * (den * 2 ^ scale r) ≤ mantissa r * (den * 2 ^ scale r) :=
    Nat.mul_le_mul_right _ hm
  have hmargin : margin r * (den * 2 ^ scale r) ≤ 2 * (den * 2 ^ scale r) :=
    Nat.mul_le_mul_right _ (margin_bounds r).2
  refine ⟨by omega, ?_⟩
  have hmax : (mantissa r + 1) * (den * 2 ^ scale r) ≤ 2 * leadingBit * (den * 2 ^ scale r) :=
    Nat.mul_le_mul_right _ (mantissa_lt r)
  rw [Nat.add_mul] at hmax
  -- the powers stay closed: nothing here should multiply them out
  have hpow : 2 ^ scale r ≤ 2 ^ 2045 := two_pow_le _ 2045 (scale_le hfinite)
  rw [Nat.pow_add 2 2045 55]
  generalize 2 ^ 2045 = greatest at hpow ⊢
  calc num < 4 * (2 * leadingBit * (den * 2 ^ scale r)) := by omega
    _ ≤ 4 * (2 * leadingBit * (den * greatest)) :=
      Nat.mul_le_mul_left _ (Nat.mul_le_mul_left _ (Nat.mul_le_mul_left _ hpow))
    _ = den * (greatest * 2 ^ 55) := by
      rw [show 2 ^ 55 = 4 * (2 * leadingBit) from rfl]
      ac_rfl

/-! ### Powers of ten against powers of two

How large and how small the decimals in a gap can be. -/

/-- The two comparisons that everything else is scaled up from. -/
theorem two_pow_le_ten_pow :
    2 ^ (93 * 11 + 6) ≤ 10 ^ (28 * 11 + 2) ∧ 2 ^ (93 * 11 + 76) ≤ 10 ^ (28 * 11 + 23) := by
  have h28 : 2 ^ 93 ≤ 10 ^ 28 := by decide
  have h2 : 2 ^ 6 ≤ 10 ^ 2 := by decide
  have h23 : 2 ^ 76 ≤ 10 ^ 23 := by decide
  have h308 : 2 ^ (93 * 11) ≤ 10 ^ (28 * 11) := by
    calc 2 ^ (93 * 11) = (2 ^ 93) ^ 11 := Nat.pow_mul 2 93 11
      _ ≤ (10 ^ 28) ^ 11 := Nat.pow_le_pow_left h28 11
      _ = 10 ^ (28 * 11) := (Nat.pow_mul 10 28 11).symm
  constructor
  · calc 2 ^ (93 * 11 + 6) = 2 ^ (93 * 11) * 2 ^ 6 := Nat.pow_add 2 (93 * 11) 6
      _ ≤ 10 ^ (28 * 11) * 10 ^ 2 := Nat.mul_le_mul h308 h2
      _ = 10 ^ (28 * 11 + 2) := (Nat.pow_add 10 (28 * 11) 2).symm
  · calc 2 ^ (93 * 11 + 76) = 2 ^ (93 * 11) * 2 ^ 76 := Nat.pow_add 2 (93 * 11) 76
      _ ≤ 10 ^ (28 * 11) * 10 ^ 23 := Nat.mul_le_mul h308 h23
      _ = 10 ^ (28 * 11 + 23) := (Nat.pow_add 10 (28 * 11) 23).symm

/-- A decimal that is not above the largest gap has no large exponent. -/
theorem exponent_lt_of_size {x : Decimal} (hdigits : x.digits ≠ 0)
    (hhigh : (x.digits * 10 ^ x.exponent.toNat) <<< 1076 <
      10 ^ (-x.exponent).toNat * 2 ^ (2045 + 55)) : x.exponent < 310 := by
  refine Int.lt_of_not_ge fun hge => ?_
  have hle := two_pow_le (2045 + 55) (93 * 11 + 6 + 1076) (by decide)
  generalize 2 ^ (2045 + 55) = bound at hhigh hle
  -- the exponent is positive, so the denominator is one
  have hzero : (-x.exponent).toNat = 0 := by omega
  rw [hzero, Nat.pow_zero, Nat.one_mul, Nat.shiftLeft_eq _ 1076] at hhigh
  have hpow : 2 ^ (93 * 11 + 6) ≤ x.digits * 10 ^ x.exponent.toNat := by
    have hexponent : 28 * 11 + 2 ≤ x.exponent.toNat := by omega
    calc 2 ^ (93 * 11 + 6) ≤ 10 ^ (28 * 11 + 2) := two_pow_le_ten_pow.1
      _ ≤ 10 ^ x.exponent.toNat := ten_pow_le (28 * 11 + 2) _ hexponent
      _ ≤ x.digits * 10 ^ x.exponent.toNat :=
        Nat.le_mul_of_pos_left _ (Nat.pos_of_ne_zero hdigits)
  have hmul : 2 ^ (93 * 11 + 6 + 1076) ≤ x.digits * 10 ^ x.exponent.toNat * 2 ^ 1076 :=
    Nat.le_trans (Nat.le_of_eq (Nat.pow_add 2 (93 * 11 + 6) 1076))
      (Nat.mul_le_mul_right (2 ^ 1076) hpow)
  exact Nat.lt_irrefl _ (Nat.lt_of_lt_of_le hhigh (Nat.le_trans hle hmul))

/-- A decimal that is not below the smallest gap is not far behind the point. -/
theorem length_ge_of_size {x : Decimal}
    (hlow : 2 * 10 ^ (-x.exponent).toNat ≤ (x.digits * 10 ^ x.exponent.toNat) <<< 1076) :
    -330 ≤ x.exponent + (x.digits.log2 + 1 : Nat) := by
  refine Int.le_of_not_gt fun hlt => ?_
  -- the exponent is negative, and so large that ten to its power outweighs the digits
  have hzero : x.exponent.toNat = 0 := by omega
  rw [hzero, Nat.pow_zero, Nat.mul_one, Nat.shiftLeft_eq _ 1076] at hlow
  have hlog : x.digits < 2 ^ (x.digits.log2 + 1) := Nat.lt_log2_self
  generalize x.digits.log2 + 1 = length at hlog hlt
  have hexponent : length + (28 * 11 + 23) ≤ (-x.exponent).toNat := by omega
  -- powers of ten are compared with powers of two by blocks of 28 against 93
  have hpow : 2 ^ length * 2 ^ (93 * 11 + 76) ≤ 10 ^ (-x.exponent).toNat := by
    calc 2 ^ length * 2 ^ (93 * 11 + 76) ≤ 10 ^ length * 10 ^ (28 * 11 + 23) :=
          Nat.mul_le_mul (Nat.pow_le_pow_left (by decide) length) two_pow_le_ten_pow.2
      _ = 10 ^ (length + (28 * 11 + 23)) := (Nat.pow_add 10 length (28 * 11 + 23)).symm
      _ ≤ 10 ^ (-x.exponent).toNat := ten_pow_le _ _ hexponent
  have hle : 2 ^ length * 2 ^ 1076 ≤ 2 ^ length * 2 ^ (93 * 11 + 76) :=
    Nat.mul_le_mul_left _ (two_pow_le 1076 (93 * 11 + 76) (by decide))
  have hmul := Nat.mul_lt_mul_of_pos_right hlog (Nat.two_pow_pos 1076)
  generalize 2 ^ 1076 = units at hle hmul hlow
  generalize 2 ^ (93 * 11 + 76) = more at hle hpow
  omega

/-- A decimal in the gap of a finite rank is neither zero nor recognised as too great or too
small. -/
theorem Gap.Has.size {r : Nat} {x : Decimal} (hpos : 0 < r) (hfinite : r < infinityRank)
    (h : (Gap.ofRank r).Has x) :
    x.digits ≠ 0 ∧ x.exponent < 310 ∧ -330 ≤ x.exponent + (x.digits.log2 + 1 : Nat) := by
  have hden : 0 < 10 ^ (-x.exponent).toNat := Nat.pow_pos (Nat.succ_pos 9)
  obtain ⟨hlow, hhigh⟩ := Gap.Contains.size hpos hfinite hden h
  have hdigits : x.digits ≠ 0 := by
    intro hzero
    rw [hzero, Nat.zero_mul, Nat.zero_shiftLeft] at hlow
    omega
  exact ⟨hdigits, exponent_lt_of_size hdigits hhigh, length_ge_of_size hlow⟩

/-- A decimal in the gap of a finite rank is rounded to the rank. -/
theorem nearestRank_of_has {r : Nat} {x : Decimal} (hpos : 0 < r) (hfinite : r < infinityRank)
    (h : (Gap.ofRank r).Has x) : x.nearestRank = r := by
  have hden : 0 < 10 ^ (-x.exponent).toNat := Nat.pow_pos (Nat.succ_pos 9)
  have hquarters : ∀ n, n <<< 1076 = 4 * n <<< 1074 := by
    intro n
    rw [show 1076 = 1074 + 2 from rfl, Nat.shiftLeft_add, Nat.shiftLeft_eq _ 2, Nat.mul_comm]
  obtain ⟨hdigits, hhigh, hlow⟩ := h.size hpos hfinite
  rw [nearestRank_eq hdigits hhigh hlow]
  refine nearestRank_of_contains hpos hfinite hden ?_
  rw [← hquarters]
  exact h

/-! ## What the search finds

The search only ever tests multiples, so what it finds is in the gap. -/

/-- The value of a gap lies in it. -/
theorem Gap.value_mem {r : Nat} (hpos : 0 < r) :
    (Gap.ofRank r).low < (Gap.ofRank r).value ∧ (Gap.ofRank r).value < (Gap.ofRank r).high := by
  have hlow := Gap.low_add hpos
  have hhigh := Gap.high_eq r
  have hvalue : (Gap.ofRank r).value = 4 * mantissa r * 2 ^ scale r := by
    simp only [Gap.ofRank, Nat.one_shiftLeft]
  have hstep := Nat.two_pow_pos (scale r)
  have hmargin : 1 * 2 ^ scale r ≤ margin r * 2 ^ scale r :=
    Nat.mul_le_mul_right _ (margin_bounds r).1
  omega

/-- A multiple that was found is in the gap, as that was tested. -/
theorem Gap.has_of_multiple? {r d : Nat} {j : Int} (hpos : 0 < r)
    (h : (Gap.ofRank r).multiple? j = some d) : (Gap.ofRank r).Has ⟨d, j⟩ := by
  obtain ⟨hlow, hhigh⟩ := Gap.value_mem hpos
  have hup : 0 < 10 ^ (-j).toNat := Nat.pow_pos (Nat.succ_pos 9)
  have hgrid : 0 < 10 ^ j.toNat <<< 1076 := by
    rw [Nat.shiftLeft_eq]
    exact Nat.mul_pos (Nat.pow_pos (Nat.succ_pos 9)) (Nat.two_pow_pos 1076)
  have hshift : (d * 10 ^ j.toNat) <<< 1076 = d * 10 ^ j.toNat <<< 1076 := by
    rw [Nat.shiftLeft_eq, Nat.shiftLeft_eq, Nat.mul_assoc]
  show (Gap.ofRank r).Contains ((d * 10 ^ j.toNat) <<< 1076) (10 ^ (-j).toNat)
  rw [hshift]
  unfold Gap.multiple? at h
  -- the value is divided by the grid; the multiples on both sides of it are tried
  generalize hpower : 10 ^ (-j).toNat = up at hup ⊢
  rw [show Nat.pow 10 (-j).toNat = up from hpower] at h
  generalize 10 ^ j.toNat <<< 1076 = grid at hgrid h ⊢
  have hfloor := Nat.div_add_mod ((Gap.ofRank r).value * up) grid
  have hrest := Nat.mod_lt ((Gap.ofRank r).value * up) hgrid
  have hlow' := Nat.mul_lt_mul_of_pos_right hlow hup
  have hhigh' := Nat.mul_lt_mul_of_pos_right hhigh hup
  rw [Nat.mul_comm grid] at hfloor
  dsimp only at h
  have hnext := Nat.add_one_mul ((Gap.ofRank r).value * up / grid) grid
  split at h
  · -- the multiple below the value
    next hlower =>
    cases h
    rw [Bool.and_eq_true] at hlower
    exact ⟨hlower.1, Gap.before_iff.2 ⟨by omega, fun _ => by omega⟩⟩
  split at h
  · -- the multiple above it
    next hupper =>
    cases h
    exact ⟨Gap.before_iff.2 ⟨by omega, fun _ => by omega⟩, hupper⟩
  · cases h

/-- Powers of ten are powers of five, shifted. -/
theorem mul_five_pow_shiftLeft (value n : Nat) :
    (value * Nat.pow 5 n) <<< n = value * 10 ^ n := by
  rw [Nat.shiftLeft_eq, Nat.mul_assoc]
  exact congrArg (value * ·) (Nat.mul_pow 5 2 n).symm

/-- A decimal that is written with places behind the point only. -/
theorem Gap.has_of_places {g : Gap} {digits places : Nat}
    (h : g.Contains (digits <<< 1076) (10 ^ places)) : g.Has ⟨digits, -places⟩ := by
  unfold Gap.Has
  have hwhole : (-(places : Int)).toNat = 0 := by omega
  have hplaces : (- -(places : Int)).toNat = places := by omega
  dsimp only
  rw [hwhole, hplaces, Nat.pow_zero, Nat.mul_one]
  exact h

/-- The exact decimal of the rank is in the middle of its gap. -/
theorem Gap.has_exact {r : Nat} (hpos : 0 < r) : (Gap.ofRank r).Has (Gap.ofRank r).exact := by
  obtain ⟨hlow, hhigh⟩ := Gap.value_mem hpos
  refine @Gap.has_of_places _ _ 1076 ?_
  rw [mul_five_pow_shiftLeft _ 1076]
  have hden : 0 < 10 ^ 1076 := Nat.pow_pos (Nat.succ_pos 9)
  generalize 10 ^ 1076 = den at hden ⊢
  have hlow' := Nat.mul_lt_mul_of_pos_right hlow hden
  have hhigh' := Nat.mul_lt_mul_of_pos_right hhigh hden
  exact ⟨Gap.before_iff.2 ⟨Nat.le_of_lt hlow', fun _ => hlow'⟩,
    Gap.before_iff.2 ⟨Nat.le_of_lt hhigh', fun _ => hhigh'⟩⟩

/-- What the search finds, by induction on the exponents it goes down. -/
theorem Gap.has_search {r : Nat} (hpos : 0 < r) (n : Nat) :
    ∀ j, (Gap.ofRank r).Has ((Gap.ofRank r).search n j) := by
  induction n with
  | zero => exact fun _ => Gap.has_exact hpos
  | succ n ih =>
    intro j
    unfold Gap.search
    split
    · next d hd => exact Gap.has_of_multiple? hpos hd
    · exact ih (j - 1)

theorem has_shortest {r : Nat} (hpos : 0 < r) : (Gap.ofRank r).Has (shortest r) :=
  Gap.has_search hpos 25 (ceilingExponent r)

/-- **The shortest decimal reads back.** -/
theorem nearestRank_shortest {r : Nat} (hpos : 0 < r) (hfinite : r < infinityRank) :
    (shortest r).nearestRank = r :=
  nearestRank_of_has hpos hfinite (has_shortest hpos)

end Decimal
end Scriptlet
