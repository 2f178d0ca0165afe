import Scriptlet.Proofs.Number.ReadBack

/-!
The text of a number stands for it.

A program sees every double as text in one way: the two words, a zero without its sign, or the
shortest decimal with a minus sign before it where there is one.  Each of these four is a number of
the grammar and denotes the double that it was written for, but for the negative zero
(`denotes_text`).  So a text that was written is read, and what is read is written as the same text
again.

The four ways of writing meet the reader in the grammar and nowhere else: a text is shown to be put
together as `Denotes` says, and the reader was proved to follow it.

The zeros are the one place where writing loses something: both are written as the digit, which is
read as the positive one.  So what is read back is not always the number itself but the one of its
class that is `canonical`, and the two are equal as numbers (`same_canonical`).

Main statements: `read?_text`, and `text_eq_text_iff`, that equal texts are those of equal numbers.
-/

namespace Scriptlet

/-- Text without blanks has nothing to trim. -/
theorem Text.trim_of_not_isBlank {s : List Char} (h : ∀ c ∈ s, isBlank c = false) : trim s = s := by
  have hself : ∀ l : List Char, (∀ c ∈ l, isBlank c = false) → l.dropWhile isBlank = l := by
    intro l hl
    cases l with
    | nil => rfl
    | cons c l => exact List.dropWhile_cons_of_neg (by simp [hl c List.mem_cons_self])
  have hreverse : ∀ c ∈ s.reverse, isBlank c = false := fun c hc => h c (List.mem_reverse.1 hc)
  rw [trim, hself s h, hself s.reverse hreverse, List.reverse_reverse]

namespace Number

open Binary
open Decimal (Sign Numeral)

/-- Of the numbers that are written alike the one that is read: zero has no sign. -/
def canonical (x : Float) : Float := if rankOf x = 0 then ofRank false 0 else x

theorem canonical_of_pos {x : Float} (h : 0 < rankOf x) : canonical x = x :=
  if_neg (Nat.ne_of_gt h)

theorem canonical_of_zero {x : Float} (h : rankOf x = 0) : canonical x = 0 := by
  rw [canonical, if_pos h]
  decide

/-- It is the same number. -/
theorem same_canonical (x : Float) : Same (canonical x) x := by
  rw [same_iff]
  rcases Nat.eq_zero_or_pos (rankOf x) with h | h
  · rw [canonical_of_zero h]
    exact Or.inr ⟨by decide, h⟩
  · exact Or.inl (canonical_of_pos h)

theorem canonical_eq_canonical_iff {x y : Float} : canonical x = canonical y ↔ Same x y := by
  -- zeros become the positive one, and everything else is left as it is
  have hzero : rankOf (0 : Float) = 0 := by decide
  rw [same_iff]
  rcases Nat.eq_zero_or_pos (rankOf x) with hx | hx
  · rcases Nat.eq_zero_or_pos (rankOf y) with hy | hy
    · rw [canonical_of_zero hx, canonical_of_zero hy]
      exact ⟨fun _ => Or.inr ⟨hx, hy⟩, fun _ => rfl⟩
    · rw [canonical_of_zero hx, canonical_of_pos hy]
      constructor
      · rintro rfl
        omega
      · rintro (rfl | ⟨-, hrank⟩) <;> omega
  · rcases Nat.eq_zero_or_pos (rankOf y) with hy | hy
    · rw [canonical_of_pos hx, canonical_of_zero hy]
      constructor
      · rintro rfl
        omega
      · rintro (rfl | ⟨hrank, -⟩) <;> omega
    · rw [canonical_of_pos hx, canonical_of_pos hy]
      exact ⟨Or.inl, fun h => h.resolve_right fun hrank => Nat.ne_of_gt hx hrank.1⟩

/-! ## What a text denotes -/

/-- The sign that is written is that of the number. -/
theorem sign_written (negative : Bool) : Sign (if negative then ['-'] else []) negative := by
  cases negative with
  | false => exact Sign.none
  | true => exact Sign.minus

/-- The shortest decimal, written positionally, denotes the double with its rank. -/
theorem numeral_shortest {r : Nat} (hpos : 0 < r) (hfinite : r < infinityRank) (negative : Bool) :
    Magnitude negative (Decimal.shortest r).positional (ofRank negative r) := by
  have hexponent := ((Decimal.has_shortest hpos).size hpos hfinite).2.1
  obtain ⟨d, hread, hrank⟩ := Decimal.read?_positional hexponent
  have hvalue : d.toFloat negative = ofRank negative r := by
    rw [Decimal.toFloat, hrank, Decimal.nearestRank_shortest hpos hfinite]
  rw [← hvalue]
  exact Magnitude.numeral (Decimal.read?_iff.1 hread)

/-- The single digit of zero. -/
theorem denotes_zero : Denotes ['0'] (ofRank false 0) := by
  have hread : Decimal.read? ['0'] = some ⟨0, 0⟩ := by decide
  have hmagnitude : Magnitude false ['0'] (Decimal.toFloat ⟨0, 0⟩ false) :=
    Magnitude.numeral (Decimal.read?_iff.1 hread)
  have hvalue : Decimal.toFloat ⟨0, 0⟩ false = ofRank false 0 := by
    rw [Decimal.toFloat, Decimal.nearestRank, if_pos rfl]
  rw [hvalue] at hmagnitude
  exact Denotes.mk Sign.none hmagnitude

/-- **The text of a number denotes it.** -/
theorem denotes_text (x : Float) : Denotes (text x).toList (canonical x) := by
  have hfound := ofRank_isNegative_rankOf x
  have hsign := sign_written (isNegative x)
  unfold text write
  rw [String.toList_ofList]
  -- the cases of the writer
  split
  · next hnan =>
    rw [eq_notANumber_of_rank hnan, canonical_of_pos (by decide)]
    exact Denotes.mk Sign.none Magnitude.nan
  split
  · next hinfinity =>
    have hmagnitude := @Magnitude.infinity (isNegative x)
    have hpos : 0 < rankOf x := by
      rw [hinfinity]
      decide
    rw [hinfinity] at hfound
    rw [Binary.infinity, hfound] at hmagnitude
    rw [canonical_of_pos hpos]
    exact Denotes.mk hsign hmagnitude
  split
  · next hzero =>
    rw [canonical, if_pos hzero]
    exact denotes_zero
  · next hzero =>
    have hpos : 0 < rankOf x := Nat.pos_of_ne_zero hzero
    have hmagnitude := numeral_shortest hpos (by omega) (isNegative x)
    rw [hfound] at hmagnitude
    rw [canonical_of_pos hpos]
    exact Denotes.mk hsign hmagnitude

/-- **What is written is read.** -/
theorem read?_text (x : Float) : read? (text x) = some (canonical x) := by
  rw [read?_iff, Text.trim_of_not_isBlank (denotes_text x).not_isBlank]
  exact denotes_text x

/-! ## Equal texts -/

theorem text_of_zero {x : Float} (h : rankOf x = 0) : text x = "0" := by
  unfold text write
  rw [h]
  rfl

/-- What is read is written as it was. -/
theorem text_canonical (x : Float) : text (canonical x) = text x := by
  rcases Nat.eq_zero_or_pos (rankOf x) with h | h
  · rw [canonical_of_zero h, text_of_zero h, text_of_zero (by decide)]
  · rw [canonical_of_pos h]

/-- **Equal texts are those of equal numbers.** -/
theorem text_eq_text_iff {x y : Float} : text x = text y ↔ Same x y := by
  rw [← canonical_eq_canonical_iff]
  constructor
  · intro h
    have hread := read?_text x
    rw [h, read?_text y] at hread
    exact (Option.some.inj hread).symm
  · intro h
    rw [← text_canonical x, h, text_canonical y]

end Number
end Scriptlet
