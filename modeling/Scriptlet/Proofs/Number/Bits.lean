import Mathlib
import Scriptlet.Number.Binary

/-!
Ranks and doubles.

A double is a bit pattern, of which only those that are no numbers have more than one spelling.  Going
from the pattern to the double takes it apart into sign, exponent and mantissa and puts it together
again; for the pattern of a double nothing is lost (`pack_unpack`).  So a double is found again by its
sign and its rank, and above the rank of infinity there is one double only.

Doubles are compared by their parts.  What compares as equal is the same double, but for the two
zeros, and only what is no number is not equal to itself.

The steps are those of a pattern of 64 bits.  Its parts are taken out by shifting and masking, and
what makes the proof short is to treat the parts as numbers: a pattern is a sum of its sign, its
exponent and its mantissa, each multiplied by its place.  Then the rank is the pattern without the
sign, and equality of patterns is arithmetic.  The mantissa of a number that is not too small has a
leading bit that is not stored, so there are two cases (`pack_finite_small`, `pack_finite_large`).

Main statements: `Binary.ofRank_isNegative_rankOf`, for the other way `toBits_ofRank`, and `same_iff`
for equality.
-/

namespace Scriptlet
namespace Binary

open Float.Model (Format UnpackedFloat)
open Float.Model.UnpackedFloat

variable {b : BitVec Format.binary64.numBits}

/-! ## Taking a pattern apart and putting it together -/

theorem toBitVec_ofBitVec (s : BitVec 1) : (Sign.ofBitVec s).toBitVec = s := by
  have hs := s.isLt
  unfold Sign.ofBitVec
  split
  · next h =>
    rw [h]
    rfl
  · next h =>
    have hne : s.toNat ≠ 0 := fun hzero => h (BitVec.eq_of_toNat_eq hzero)
    refine BitVec.eq_of_toNat_eq ?_
    show 1 = s.toNat
    omega

/-- Sign, exponent and mantissa make up the pattern. -/
theorem packComponents_unpack {exponent : BitVec Format.binary64.exponentBits}
    {stored : BitVec Format.binary64.mantissaBitsWithoutImplicit}
    (hexponent : unpackExponent b = exponent) (hstored : unpackMantissa b = stored) :
    packComponents Format.binary64 (Sign.ofBitVec (unpackSign b)) exponent stored = b := by
  rw [packComponents, toBitVec_ofBitVec, ← hexponent, ← hstored]
  apply BitVec.eq_of_getLsbD_eq
  intro i hi
  have hi64 : i < 64 := hi
  simp only [BitVec.getLsbD_append, unpackMantissa, unpackExponent, unpackSign,
    BitVec.getLsbD_cast, BitVec.getLsbD_extractLsb]
  split
  · rw [Nat.zero_add, decide_eq_true (by omega), Bool.true_and]
  split
  · rw [show 52 + (i - 52) = i by omega, decide_eq_true (by omega), Bool.true_and]
  · rw [show 52 + 11 + (i - 52 - 11) = i by omega, decide_eq_true (by omega), Bool.true_and]

/-- Below the first power of two the mantissa is the pattern, as long as it is stored in 52 bits. -/
theorem pack_finite_small {s : Sign} {stored : BitVec 52} {e : Int} (he : e = -1074)
    (hpos : 0 < stored.toNat) :
    pack Format.binary64 (.finite s stored.toNat e hpos) =
      packComponents Format.binary64 s 0#11 stored := by
  subst he
  have hlog : ¬ stored.toNat.log2 + 1 = Format.binary64.mantissaBits := by
    show ¬ stored.toNat.log2 + 1 = 53
    have hlt := (Nat.log2_lt (Nat.ne_of_gt hpos)).2 stored.isLt
    omega
  rw [pack]
  dsimp only
  rw [if_neg (by decide), if_neg hlog, BitVec.ofNat_toNat, BitVec.setWidth_eq]

/-- From there on the leading bit is left out and the exponent is stored. -/
theorem pack_finite_large {s : Sign} {exponent : BitVec 11} {stored : BitVec 52} {e : Int}
    (he : e = exponent.toNat - 1075) (hexponent : exponent.toNat < 2047)
    (hpos : 0 < (1#1 ++ stored).toNat) :
    pack Format.binary64 (.finite s (1#1 ++ stored).toNat e hpos) =
      packComponents Format.binary64 s exponent stored := by
  subst he
  have hstored := stored.isLt
  have hvalue : (1#1 ++ stored).toNat = 2 ^ 52 + stored.toNat := by
    rw [BitVec.toNat_append, ← Nat.shiftLeft_add_eq_or_of_lt hstored, Nat.shiftLeft_eq]
    show 1 * 2 ^ 52 + stored.toNat = _
    rw [Nat.one_mul]
  -- the leading bit makes the mantissa as long as it may be, which `pack` recognises
  have hlog : (1#1 ++ stored).toNat.log2 + 1 = Format.binary64.mantissaBits := by
    have hne : 2 ^ 52 + stored.toNat ≠ 0 := by omega
    have h52 : (2 ^ 52 + stored.toNat).log2 = 52 := (Nat.log2_eq_iff hne).2 ⟨by omega, by omega⟩
    rw [hvalue, h52]
    rfl
  have hbiased : ((exponent.toNat : Int) - 1075 + Format.binary64.exponentBias +
      Format.binary64.mantissaBitsWithoutImplicit).toNat = exponent.toNat := by
    show ((exponent.toNat : Int) - 1075 + (1023 : Nat) + (52 : Nat)).toNat = exponent.toNat
    omega
  have hroom : ¬ 2 ^ Format.binary64.exponentBits ≤ exponent.toNat + 1 := by
    show ¬ 2 ^ 11 ≤ exponent.toNat + 1
    omega
  have hmantissa : BitVec.ofNat 52 (1#1 ++ stored).toNat = stored := by
    refine BitVec.eq_of_toNat_eq ?_
    rw [BitVec.toNat_ofNat, hvalue, Nat.add_mod_left, Nat.mod_eq_of_lt hstored]
  rw [pack]
  dsimp only
  rw [hbiased, if_neg hroom, if_pos hlog, BitVec.ofNat_toNat, BitVec.setWidth_eq, hmantissa]

/-- **Nothing is lost.**  The pattern of a double is taken apart and put together again. -/
theorem pack_unpack (h : Format.binary64.Valid b) :
    pack Format.binary64 (unpack Format.binary64 b) = b := by
  unfold unpack
  dsimp only
  split
  · -- the greatest exponent: infinity, or the one pattern that is no number
    next hexponent =>
    split
    · next hstored => exact packComponents_unpack hexponent hstored
    · next hstored => exact (h.eq_packedNaN hexponent hstored).symm
  · next hfinite =>
    split
    · -- the least exponent: zero, or no leading bit
      next hexponent =>
      split
      · next hstored => exact packComponents_unpack hexponent hstored
      · next hstored =>
        refine Eq.trans (pack_finite_small ?_ _) (packComponents_unpack hexponent rfl)
        rw [hexponent]
        rfl
    · next hexponent =>
      refine Eq.trans (pack_finite_large ?_ ?_ _) (packComponents_unpack rfl rfl)
      · rfl
      · have hlt : (unpackExponent b).toNat < 2048 := (unpackExponent b).isLt
        have hne : (unpackExponent b).toNat ≠ 2047 := fun heq => hfinite (BitVec.eq_of_toNat_eq heq)
        omega

/-! ## Doubles -/

/-- A double is found again by its pattern. -/
theorem ofBits_toBits (x : Float) : Float.ofBits x.toBits = x := by
  obtain ⟨bits, hvalid⟩ := x
  have hmodel : ∀ c hc, c = bits → Float.ofModel ⟨c, hc⟩ = Float.ofModel ⟨bits, hvalid⟩ := by
    rintro c hc rfl
    rfl
  refine hmodel _ _ ?_
  show UInt64.ofBitVec (pack Format.binary64 (unpack Format.binary64 bits.toBitVec)) = bits
  rw [pack_unpack hvalid]

/-- **A double is found again by its sign and its rank.** -/
theorem ofRank_isNegative_rankOf (x : Float) : ofRank (isNegative x) (rankOf x) = x := by
  have hlt : x.toBits.toNat < 2 * signBit := x.toBits.toNat_lt
  have hbits : (if isNegative x = true then signBit + rankOf x else rankOf x) = x.toBits.toNat := by
    unfold rankOf
    split
    · next h =>
      have hle : signBit ≤ x.toBits.toNat := of_decide_eq_true h
      rw [Nat.mod_eq_sub_mod hle, Nat.mod_eq_of_lt (by omega)]
      omega
    · next h =>
      have hnot : ¬ signBit ≤ x.toBits.toNat := fun hle => h (decide_eq_true hle)
      exact Nat.mod_eq_of_lt (Nat.lt_of_not_le hnot)
  unfold ofRank
  rw [hbits, UInt64.ofNat_toNat, ofBits_toBits]

theorem ofRank_rankOf {x : Float} (h : isNegative x = false) : ofRank false (rankOf x) = x := by
  have hfound := ofRank_isNegative_rankOf x
  rwa [h] at hfound

/-- Of the patterns above infinity one is that of a double. -/
theorem eq_packedNaN_of_rank (hvalid : Format.binary64.Valid b)
    (h : infinityRank < b.toNat % signBit) : b = packedNaN Format.binary64 := by
  have hrank : 2047 * 2 ^ 52 < b.toNat % 2 ^ 63 := h
  apply hvalid.eq_packedNaN
  · apply BitVec.eq_of_toNat_eq
    have hexponent : b.toNat / 2 ^ 52 % 2 ^ 11 = 2047 := by omega
    simpa [unpackExponent, BitVec.extractLsb_toNat, Nat.shiftRight_eq_div_pow] using hexponent
  · intro hzero
    have hmantissa : b.toNat % 2 ^ 52 = 0 := by
      have heq := congrArg BitVec.toNat hzero
      simpa [unpackMantissa, BitVec.extractLsb_toNat] using heq
    omega

/-- What is above infinity is no number. -/
theorem eq_notANumber_of_rank {x : Float} (h : infinityRank < rankOf x) : x = notANumber := by
  have hpattern : x.toBits.toBitVec = packedNaN Format.binary64 :=
    eq_packedNaN_of_rank x.toModel.valid h
  have hbits : x.toBits = UInt64.ofBitVec (packedNaN Format.binary64) :=
    congrArg UInt64.ofBitVec hpattern
  rw [← ofBits_toBits x, hbits]
  decide

/-! ## Comparing doubles

Equality goes by the parts, in which zero is the only number with two signs. -/

/-- A double is what its parts make up. -/
theorem pack_unpack_toModel (x : Float) : Float.ofModel (.pack x.toModel.unpack) = x :=
  ofBits_toBits x

theorem eq_of_unpack_eq {x y : Float} (h : x.toModel.unpack = y.toModel.unpack) : x = y := by
  rw [← pack_unpack_toModel x, h, pack_unpack_toModel]

theorem rankOf_of_zero {x : Float} {s : Sign} (h : x.toModel.unpack = .zero s) : rankOf x = 0 := by
  rw [← pack_unpack_toModel x, h]
  cases s <;> decide

theorem eq_notANumber_of_isNaN {x : Float} (h : x.isNaN = true) : x = notANumber := by
  have hparts : x.toModel.unpack.isNaN = true := h
  rw [← pack_unpack_toModel x]
  generalize x.toModel.unpack = u at hparts ⊢
  cases u with
  | notANumber => decide
  | _ => cases hparts

/-- Everything but what is no number is equal to itself. -/
theorem beq_self_of_not_isNaN {x : Float} (h : x.isNaN = false) : (x == x) = true := by
  have hparts : x.toModel.unpack.isNaN = false := h
  show (x.toModel.unpack.compare x.toModel.unpack == some .eq) = true
  generalize x.toModel.unpack = u at hparts ⊢
  cases u with
  | notANumber => cases hparts
  | infinity s => cases s <;> rfl
  | zero s => rfl
  | finite s m e hm => cases s <;> simp [UnpackedFloat.compare]

/-- Parts that compare as equal are the same, or both are those of a zero. -/
theorem eq_of_compare {u v : UnpackedFloat} (h : u.compare v = some .eq) :
    (∃ s t, u = .zero s ∧ v = .zero t) ∨ u = v := by
  cases u with
  | notANumber => cases h
  | zero s =>
    cases v with
    | zero t => exact Or.inl ⟨s, t, rfl, rfl⟩
    | notANumber => cases h
    | infinity t => cases t <;> cases h
    | finite t => cases t <;> cases h
  | infinity s =>
    refine Or.inr ?_
    cases v with
    | infinity t => cases s <;> cases t <;> simp_all [UnpackedFloat.compare]
    | _ => cases s <;> cases h
  | finite s m e hm =>
    refine Or.inr ?_
    cases v with
    | notANumber => cases s <;> cases h
    | infinity t => cases s <;> cases t <;> cases h
    | zero t => cases s <;> cases h
    | finite t n f hn =>
      -- of equal signs the exponents are compared and then the mantissas
      cases s <;> cases t <;> simp_all [UnpackedFloat.compare, Ordering.then_eq_eq]

theorem eq_or_zeros_of_beq {x y : Float} (h : (x == y) = true) :
    x = y ∨ rankOf x = 0 ∧ rankOf y = 0 := by
  have hcompare : (x.toModel.unpack.compare y.toModel.unpack == some .eq) = true := h
  rcases eq_of_compare (LawfulBEq.eq_of_beq hcompare) with ⟨s, t, hx, hy⟩ | heq
  · exact Or.inr ⟨rankOf_of_zero hx, rankOf_of_zero hy⟩
  · exact Or.inl (eq_of_unpack_eq heq)

/-- Two doubles stand for the same number: they compare as equal, or both are no number. -/
def Same (x y : Float) : Prop := (x == y) = true ∨ x.isNaN = true ∧ y.isNaN = true

/-- A double of rank zero is one of the two zeros. -/
theorem zero_of_rank {x : Float} (h : rankOf x = 0) : ∃ negative, x = ofRank negative 0 :=
  ⟨isNegative x, by rw [← h, ofRank_isNegative_rankOf]⟩

/-- **Only zero has two doubles.** -/
theorem same_iff {x y : Float} : Same x y ↔ x = y ∨ rankOf x = 0 ∧ rankOf y = 0 := by
  constructor
  · rintro (hequal | ⟨hx, hy⟩)
    · exact eq_or_zeros_of_beq hequal
    · exact Or.inl (by rw [eq_notANumber_of_isNaN hx, eq_notANumber_of_isNaN hy])
  · rintro (rfl | ⟨hx, hy⟩)
    · cases hnan : x.isNaN with
      | false => exact Or.inl (beq_self_of_not_isNaN hnan)
      | true => exact Or.inr ⟨hnan, hnan⟩
    · obtain ⟨s, rfl⟩ := zero_of_rank hx
      obtain ⟨t, rfl⟩ := zero_of_rank hy
      refine Or.inl ?_
      cases s <;> cases t <;> decide

/-! ## Doubles by sign and rank -/

/-- A pattern of which the bits below the sign are worth no more than infinity has no second
spelling. -/
theorem valid_of_rank_le (h : b.toNat % signBit ≤ infinityRank) : Format.binary64.Valid b := by
  constructor
  intro hexponent hmantissa
  have hexponent' : b.toNat / 2 ^ 52 % 2 ^ 11 = 2047 := by
    have heq := congrArg BitVec.toNat hexponent
    simpa [unpackExponent, BitVec.extractLsb_toNat, Nat.shiftRight_eq_div_pow] using heq
  have hmantissa' : b.toNat % 2 ^ 52 ≠ 0 := by
    intro hzero
    apply hmantissa
    apply BitVec.eq_of_toNat_eq
    simpa [unpackMantissa, BitVec.extractLsb_toNat] using hzero
  have hrank : b.toNat % 2 ^ 63 ≤ 2047 * 2 ^ 52 := h
  omega

variable {rank : Nat}

theorem lt_signBit_of_le (h : rank ≤ infinityRank) : rank < signBit :=
  Nat.lt_of_le_of_lt h (by decide)

/-- The pattern with a given sign and rank. -/
theorem signed_mod_signBit (negative : Bool) (h : rank ≤ infinityRank) :
    (if negative then signBit + rank else rank) % signBit = rank := by
  have hmod : rank % signBit = rank := Nat.mod_eq_of_lt (lt_signBit_of_le h)
  cases negative with
  | false => exact hmod
  | true =>
    show (signBit + rank) % signBit = rank
    rw [Nat.add_mod_left, hmod]

/-- A double that is given by its sign and its rank has the pattern of these two. -/
theorem toBits_ofRank (negative : Bool) (h : rank ≤ infinityRank) :
    (ofRank negative rank).toBits.toNat = if negative then signBit + rank else rank := by
  have hmod := signed_mod_signBit negative h
  unfold ofRank
  -- sign and rank together fit into 64 bits
  generalize hbits : (if negative then signBit + rank else rank) = bits at hmod
  have hlt : bits < 2 ^ 64 := by
    have hrank : rank < 2 ^ 63 := lt_signBit_of_le h
    have hsign : signBit = 2 ^ 63 := by decide
    rw [hsign] at hbits
    cases negative with
    | false =>
      have heq : rank = bits := hbits
      omega
    | true =>
      have heq : 2 ^ 63 + rank = bits := hbits
      omega
  have hnat : (UInt64.ofNat bits).toNat = bits := by
    rw [UInt64.toNat_ofNat', Nat.mod_eq_of_lt hlt]
  have hvalid : Format.binary64.Valid (UInt64.ofNat bits).toBitVec := by
    apply valid_of_rank_le
    rw [UInt64.toNat_toBitVec, hnat, hmod]
    exact h
  -- the bits of a valid double are packed again as they were
  show (UInt64.ofBitVec (pack Format.binary64 (unpack Format.binary64 _))).toNat = bits
  rw [pack_unpack hvalid]
  exact hnat

theorem isNegative_ofRank (negative : Bool) (h : rank ≤ infinityRank) :
    isNegative (ofRank negative rank) = negative := by
  unfold isNegative
  rw [toBits_ofRank negative h]
  cases negative with
  | false =>
    have hlt := lt_signBit_of_le h
    simp only [Bool.false_eq_true, if_false, decide_eq_false_iff_not]
    omega
  | true => simp

end Binary
end Scriptlet
