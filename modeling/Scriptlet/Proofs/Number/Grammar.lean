import Scriptlet.Number.Text
import Scriptlet.Proofs.Separator
import Scriptlet.Proofs.Token.Lexemes

/-!
The grammar of numbers.

`Decimal.Numeral` says what a decimal numeral is and which decimal it denotes, and `Number.Denotes`
says so of numbers with their signs and their two words.  Both are relations between a text and a
value, with no order in which the text is read: a number is put together from its parts, and the parts
do not know what stands around them.

The readings take a text apart from the left.  That they find the parts it was put together from rests
on what each part begins with: no exponent with a digit or a point (`Exponent.head`), no magnitude
with a sign (`Magnitude.unsigned`).  With that a part ends where the next one begins, and nowhere
else, since a digit after the digits would have been one of them.

Each equivalence below is proved both ways from the parts up: digits, a signed number, an exponent, a
numeral, a magnitude, a number.  From left to right, a reading that succeeds has taken the parts one
after another, and they are put together again by the rule for them.  From right to left, the parts
are given, and the reading is computed on what they are put together to.

Main statements: exactly the texts of the grammar are read, and each as what it denotes
(`Decimal.read?_iff`, `Number.readExact?_iff`).
-/

namespace Scriptlet
namespace Decimal

/-! ## The grammar -/

/-- One digit or more, and nothing else. -/
def Digits (s : List Char) : Prop := s ≠ [] ∧ ∀ c ∈ s, c.isDigit = true

/-- One sign or none, and whether it is a minus. -/
inductive Sign : List Char → Bool → Prop where
  | none : Sign [] false
  | plus : Sign ['+'] false
  | minus : Sign ['-'] true

/-- A whole number with its sign. -/
def signed (negative : Bool) (n : Nat) : Int := if negative then -n else n

/-- The power of ten behind the digits: none, or a mark, a sign or none, and digits. -/
inductive Exponent : List Char → Int → Prop where
  | absent : Exponent [] 0
  | present {mark : Char} {sign digits : List Char} {negative : Bool}
      (hmark : mark = 'e' ∨ mark = 'E') (hsign : Sign sign negative) (hdigits : Digits digits) :
      Exponent (mark :: (sign ++ digits)) (signed negative (digitsValue digits))

/-- Digits with a point among them or without, and the digits before and behind it. -/
inductive Significand : List Char → List Char → List Char → Prop where
  | plain (whole : List Char) : Significand whole whole []
  | pointed (whole fraction : List Char) : Significand (whole ++ '.' :: fraction) whole fraction

/-- A decimal numeral without a sign, and the decimal it denotes.  There is a digit, before the
point or behind it. -/
inductive Numeral : List Char → Decimal → Prop where
  | mk {significand whole fraction exponent : List Char} {power : Int}
      (hsignificand : Significand significand whole fraction) (hdigits : Digits (whole ++ fraction))
      (hexponent : Exponent exponent power) :
      Numeral (significand ++ exponent) ⟨digitsValue (whole ++ fraction), power - fraction.length⟩

/-! ### What the parts begin with -/

theorem ne_of_isDigit {c d : Char} (hc : c.isDigit = true) (hd : d.isDigit = false) : c ≠ d := by
  rintro rfl
  rw [hc] at hd
  cases hd

/-- An exponent begins with its mark. -/
theorem Exponent.head {s : List Char} {power : Int} (h : Exponent s power) :
    ∀ c ∈ s.head?, c.isDigit = false ∧ c ≠ '.' := by
  cases h with
  | absent => simp
  | present hmark hsign hdigits =>
    rintro c ⟨rfl⟩
    rcases hmark with rfl | rfl <;> decide

/-- A numeral begins with a digit or with the point. -/
theorem Numeral.head {s : List Char} {x : Decimal} (h : Numeral s x) :
    ∃ c rest, s = c :: rest ∧ (c.isDigit = true ∨ c = '.') := by
  obtain ⟨hsignificand, ⟨hne, hdigit⟩, -⟩ := h
  cases hsignificand with
  | plain =>
    rename_i whole exponent power
    cases whole with
    | nil => exact absurd rfl hne
    | cons c whole => exact ⟨c, whole ++ exponent, rfl, Or.inl (hdigit c (by simp))⟩
  | pointed =>
    rename_i whole fraction exponent power
    cases whole with
    | nil => exact ⟨'.', fraction ++ exponent, rfl, Or.inr rfl⟩
    | cons c whole =>
      exact ⟨c, whole ++ '.' :: fraction ++ exponent, rfl, Or.inl (hdigit c (by simp))⟩

/-- Besides digits a numeral contains the point, signs and the marks of the exponent. -/
theorem Numeral.chars {s : List Char} {x : Decimal} (h : Numeral s x) :
    ∀ c ∈ s, c.isDigit = true ∨ c ∈ ['.', '+', '-', 'e', 'E'] := by
  obtain ⟨hsignificand, ⟨-, hdigit⟩, hexponent⟩ := h
  intro c hc
  -- a character of the significand, or of the exponent
  rcases List.mem_append.1 hc with hc | hc
  · cases hsignificand with
    | plain => exact Or.inl (hdigit c (List.mem_append_left _ hc))
    | pointed whole fraction =>
      rcases List.mem_append.1 hc with hc | hc
      · exact Or.inl (hdigit c (List.mem_append_left _ hc))
      · rcases List.mem_cons.1 hc with rfl | hc
        · exact Or.inr (by simp)
        · exact Or.inl (hdigit c (List.mem_append_right _ hc))
  · cases hexponent with
    | absent => cases hc
    | present hmark hsign hdigits =>
      rcases List.mem_cons.1 hc with rfl | hc
      · rcases hmark with rfl | rfl <;> exact Or.inr (by simp)
      · rcases List.mem_append.1 hc with hc | hc
        · cases hsign with
          | none => cases hc
          | plus => exact Or.inr (by simp_all)
          | minus => exact Or.inr (by simp_all)
        · exact Or.inl (hdigits.2 c hc)

/-! ## Reading numerals

Part by part, each reading against its relation. -/

theorem wholeNumber?_iff {s : List Char} {n : Nat} :
    wholeNumber? s = some n ↔ Digits s ∧ n = digitsValue s := by
  have hdigits : (s ≠ [] ∧ s.all Char.isDigit = true) ↔ Digits s := by
    rw [Digits, List.all_eq_true]
  unfold wholeNumber?
  constructor
  · intro h
    split at h
    · next hs => exact ⟨hdigits.1 hs, (Option.some.inj h).symm⟩
    · cases h
  · rintro ⟨hs, rfl⟩
    rw [if_pos (hdigits.2 hs)]

/-- The digits as a whole number that may take a sign. -/
theorem wholeNumber?_cast_iff {s : List Char} {n : Int} :
    (wholeNumber? s >>= fun m => pure (m : Int)) = some n ↔ Digits s ∧ n = digitsValue s := by
  constructor
  · intro h
    obtain ⟨m, hm, hn⟩ := Option.bind_eq_some_iff.1 h
    obtain ⟨hdigits, rfl⟩ := wholeNumber?_iff.1 hm
    exact ⟨hdigits, (Option.some.inj hn).symm⟩
  · rintro ⟨hdigits, rfl⟩
    rw [wholeNumber?_iff.2 ⟨hdigits, rfl⟩]
    rfl

/-- A number is read with any sign before it. -/
theorem signedNumber?_append {sign digits : List Char} {negative : Bool} (hsign : Sign sign negative)
    (hdigits : Digits digits) :
    signedNumber? (sign ++ digits) = some (signed negative (digitsValue digits)) := by
  have hread := wholeNumber?_cast_iff.2 ⟨hdigits, rfl⟩
  unfold signedNumber?
  cases hsign with
  | plus => exact Option.map_eq_some_iff.2 ⟨_, hread, rfl⟩
  | minus => exact Option.map_eq_some_iff.2 ⟨_, hread, rfl⟩
  | none =>
    rw [List.nil_append]
    -- the first character is a digit, so the two cases of a sign do not arise
    split
    · exact absurd (hdigits.2 '-' (by simp)) (by decide)
    · exact absurd (hdigits.2 '+' (by simp)) (by decide)
    · exact Option.map_eq_some_iff.2 ⟨_, hread, rfl⟩

/-- Signed numbers are digits behind a sign, if there is one. -/
theorem signedNumber?_iff {s : List Char} {n : Int} :
    signedNumber? s = some n ↔ ∃ sign negative digits, Sign sign negative ∧ Digits digits ∧
      s = sign ++ digits ∧ n = signed negative (digitsValue digits) := by
  constructor
  · intro h
    unfold signedNumber? at h
    -- the cases of the reader are the three signs
    split at h
    · obtain ⟨m, hm, rfl⟩ := Option.map_eq_some_iff.1 h
      obtain ⟨hdigits, rfl⟩ := wholeNumber?_cast_iff.1 hm
      exact ⟨_, _, _, Sign.minus, hdigits, rfl, rfl⟩
    · obtain ⟨m, hm, rfl⟩ := Option.map_eq_some_iff.1 h
      obtain ⟨hdigits, rfl⟩ := wholeNumber?_cast_iff.1 hm
      exact ⟨_, _, _, Sign.plus, hdigits, rfl, rfl⟩
    · obtain ⟨m, hm, rfl⟩ := Option.map_eq_some_iff.1 h
      obtain ⟨hdigits, rfl⟩ := wholeNumber?_cast_iff.1 hm
      exact ⟨_, _, _, Sign.none, hdigits, rfl, rfl⟩
  · rintro ⟨sign, negative, digits, hsign, hdigits, rfl, rfl⟩
    exact signedNumber?_append hsign hdigits

/-- An exponent is nothing at all, or a signed number behind its letter. -/
theorem exponent?_iff {s : List Char} {power : Int} :
    exponent? s = some power ↔ Exponent s power := by
  constructor
  · intro h
    unfold exponent? at h
    split at h
    · obtain rfl := Option.some.inj h
      exact Exponent.absent
    · split at h
      · next hmark =>
        obtain ⟨sign, negative, digits, hsign, hdigits, rfl, rfl⟩ := signedNumber?_iff.1 h
        exact Exponent.present hmark hsign hdigits
      · cases h
  · intro h
    cases h with
    | absent => rfl
    | present hmark hsign hdigits =>
      show (if _ then signedNumber? _ else none) = _
      rw [if_pos hmark]
      exact signedNumber?_append hsign hdigits

/-- What the digits and the point of a text are taken for. -/
theorem significand_of_split {s fraction rest : List Char}
    (h : splitFraction (s.dropWhile Char.isDigit) = (fraction, rest)) :
    ∃ significand, Significand significand (s.takeWhile Char.isDigit) fraction ∧
      s = significand ++ rest ∧ ∀ c ∈ fraction, c.isDigit = true := by
  have hsplit := List.takeWhile_append_dropWhile (p := Char.isDigit) (l := s)
  unfold splitFraction at h
  split at h
  · next behind hbehind =>
    obtain ⟨rfl, rfl⟩ := Prod.mk.inj h
    refine ⟨_, Significand.pointed _ _, ?_, fun c hc => List.mem_takeWhile_imp hc⟩
    rw [List.append_assoc, List.cons_append, List.takeWhile_append_dropWhile, ← hbehind, hsplit]
  · obtain ⟨rfl, rfl⟩ := Prod.mk.inj h
    exact ⟨_, Significand.plain _, hsplit.symm, by simp⟩

/-- The digits and the point are found again in front of anything else. -/
theorem Significand.split {significand whole fraction rest : List Char}
    (h : Significand significand whole fraction) (hdigit : ∀ c ∈ whole ++ fraction, c.isDigit = true)
    (hrest : ∀ c ∈ rest.head?, c.isDigit = false ∧ c ≠ '.') :
    (significand ++ rest).takeWhile Char.isDigit = whole ∧
      splitFraction ((significand ++ rest).dropWhile Char.isDigit) = (fraction, rest) := by
  have hwhole : ∀ c ∈ whole, c.isDigit = true := fun c hc => hdigit c (List.mem_append_left _ hc)
  have hfraction : ∀ c ∈ fraction, c.isDigit = true := fun c hc => hdigit c (List.mem_append_right _ hc)
  have hstop : ∀ c ∈ rest.head?, c.isDigit = false := fun c hc => (hrest c hc).1
  -- the digits before the point stop at what follows, or at the point
  cases h with
  | plain =>
    obtain ⟨htake, hdrop⟩ := takeWhile_append_of_stop hwhole hstop
    refine ⟨htake, ?_⟩
    rw [hdrop]
    unfold splitFraction
    split
    · exact absurd rfl (hrest '.' rfl).2
    · rfl
  | pointed =>
    have hpoint : ∀ c ∈ ('.' :: (fraction ++ rest)).head?, c.isDigit = false := by
      rintro c ⟨rfl⟩
      decide
    rw [List.append_assoc, List.cons_append]
    obtain ⟨htake, hdrop⟩ := takeWhile_append_of_stop hwhole hpoint
    obtain ⟨htake', hdrop'⟩ := takeWhile_append_of_stop hfraction hstop
    refine ⟨htake, ?_⟩
    rw [hdrop]
    exact Prod.ext htake' hdrop'

/-- **The numerals are what is read**, and each denotes what it is read as. -/
theorem read?_iff {s : List Char} {x : Decimal} : read? s = some x ↔ Numeral s x := by
  unfold read?
  constructor
  · -- what the splitting finds are the parts of the grammar
    intro h
    obtain ⟨fraction, rest, hsplit⟩ :
        ∃ fraction rest, splitFraction (s.dropWhile Char.isDigit) = (fraction, rest) := ⟨_, _, rfl⟩
    obtain ⟨significand, hsignificand, hs, hfraction⟩ := significand_of_split hsplit
    rw [hsplit] at h
    dsimp only at h
    split at h
    · cases h
    · next hsome =>
      obtain ⟨power, hpower, rfl⟩ := Option.map_eq_some_iff.1 h
      -- a numeral has a digit before the point or behind it
      have hdigits : Digits (s.takeWhile Char.isDigit ++ fraction) := by
        constructor
        · rwa [Ne, List.append_eq_nil_iff]
        · intro c hc
          rcases List.mem_append.1 hc with hc | hc
          · exact List.mem_takeWhile_imp hc
          · exact hfraction c hc
      have hnumeral := Numeral.mk hsignificand hdigits (exponent?_iff.1 hpower)
      rwa [← hs] at hnumeral
  · -- and the parts of the grammar are what the splitting finds
    rintro ⟨hsignificand, hdigits, hexponent⟩
    obtain ⟨htake, hsplit⟩ := hsignificand.split hdigits.2 hexponent.head
    rw [htake, hsplit]
    dsimp only
    rw [if_neg (by rw [← List.append_eq_nil_iff]; exact hdigits.1), exponent?_iff.2 hexponent]
    rfl

end Decimal

namespace Number

open Decimal (Sign Numeral)

/-- A number without its sign.  The words are spelled exactly so. -/
inductive Magnitude (negative : Bool) : List Char → Float → Prop where
  | infinity : Magnitude negative infinityWord (Binary.infinity negative)
  | nan : Magnitude negative nanWord Binary.notANumber
  | numeral {s : List Char} {x : Decimal} (h : Numeral s x) : Magnitude negative s (x.toFloat negative)

/-- A number: one sign or none, and its magnitude.  Nothing may stand around it or in between. -/
inductive Denotes : List Char → Float → Prop where
  | mk {sign s : List Char} {negative : Bool} {x : Float} (hsign : Sign sign negative)
      (h : Magnitude negative s x) : Denotes (sign ++ s) x

/-! ## Reading numbers -/

/-- The text does not begin with a sign. -/
def Unsigned (s : List Char) : Prop := ∀ c ∈ s.head?, c ≠ '+' ∧ c ≠ '-'

/-- A text is unsigned if its first character is no sign. -/
theorem unsigned_cons {c : Char} {s : List Char} (h : c ≠ '+' ∧ c ≠ '-') : Unsigned (c :: s) := by
  rintro d ⟨rfl⟩
  exact h

/-- A number has no sign behind its sign. -/
theorem Magnitude.unsigned {negative : Bool} {s : List Char} {x : Float}
    (h : Magnitude negative s x) : Unsigned s := by
  cases h with
  | infinity => exact unsigned_cons (by decide)
  | nan => exact unsigned_cons (by decide)
  | numeral h =>
    obtain ⟨c, rest, rfl, hc⟩ := h.head
    rcases hc with hc | rfl
    · exact unsigned_cons ⟨Decimal.ne_of_isDigit hc (by decide), Decimal.ne_of_isDigit hc (by decide)⟩
    · exact unsigned_cons (by decide)

/-- A sign is taken off, and nothing else. -/
theorem splitSign_append {sign s : List Char} {negative : Bool} (hsign : Sign sign negative)
    (hs : Unsigned s) : splitSign (sign ++ s) = (negative, s) := by
  cases hsign with
  | plus => rfl
  | minus => rfl
  | none =>
    rw [List.nil_append]
    unfold splitSign
    split
    · exact absurd rfl (hs '-' rfl).2
    · exact absurd rfl (hs '+' rfl).1
    · rfl

/-- What is taken off is a sign. -/
theorem sign_splitSign (s : List Char) :
    ∃ sign, Sign sign (splitSign s).1 ∧ s = sign ++ (splitSign s).2 := by
  unfold splitSign
  split
  · exact ⟨_, Sign.minus, rfl⟩
  · exact ⟨_, Sign.plus, rfl⟩
  · exact ⟨_, Sign.none, rfl⟩

/-- There is only one way to take a number apart. -/
theorem denotes_append_iff {sign s : List Char} {negative : Bool} {x : Float}
    (hsign : Sign sign negative) (hs : Unsigned s) :
    Denotes (sign ++ s) x ↔ Magnitude negative s x := by
  constructor
  · intro h
    generalize htext : sign ++ s = text at h
    obtain ⟨hsign', h⟩ := h
    have hsplit := splitSign_append hsign hs
    rw [htext, splitSign_append hsign' h.unsigned] at hsplit
    obtain ⟨rfl, rfl⟩ := Prod.mk.inj hsplit
    exact h
  · exact Denotes.mk hsign

/-- **The numbers are what is read**, and each denotes what it is read as. -/
theorem readExact?_iff {s : List Char} {x : Float} : readExact? s = some x ↔ Denotes s x := by
  constructor
  · -- the reader takes the sign off and asks for the two words first
    intro h
    obtain ⟨sign, hsign, hs⟩ := sign_splitSign s
    rw [hs]
    refine Denotes.mk hsign ?_
    unfold readExact? at h
    dsimp only at h
    split at h
    · next hword =>
      obtain rfl := Option.some.inj h
      rw [hword]
      exact Magnitude.infinity
    · split at h
      · next hword =>
        obtain rfl := Option.some.inj h
        rw [hword]
        exact Magnitude.nan
      · obtain ⟨d, hd, rfl⟩ := Option.map_eq_some_iff.1 h
        exact Magnitude.numeral (Decimal.read?_iff.1 hd)
  · -- a numeral is none of the two words, since they are not read as decimals
    rintro ⟨hsign, h⟩
    unfold readExact?
    rw [splitSign_append hsign h.unsigned]
    cases h with
    | infinity => rfl
    | nan => rfl
    | numeral hnumeral =>
      have hread := Decimal.read?_iff.2 hnumeral
      dsimp only
      rw [if_neg (by rintro rfl; cases hread), if_neg (by rintro rfl; cases hread), hread]
      rfl

/-- Blanks around a number are no part of it. -/
theorem read?_iff {s : String} {x : Float} : read? s = some x ↔ Denotes (Text.trim s.toList) x :=
  readExact?_iff

/-- What begins with a character of no numeral is a magnitude only if it is one of the words. -/
theorem magnitude_cons_iff {c : Char} {s : List Char} {negative : Bool} {x : Float}
    (hdigit : c.isDigit = false) (hpoint : c ≠ '.') :
    Magnitude negative (c :: s) x ↔ c :: s = infinityWord ∧ x = Binary.infinity negative ∨
      c :: s = nanWord ∧ x = Binary.notANumber := by
  constructor
  · generalize htext : c :: s = text
    intro h
    cases h with
    | infinity => exact Or.inl ⟨rfl, rfl⟩
    | nan => exact Or.inr ⟨rfl, rfl⟩
    | numeral h =>
      obtain ⟨d, rest, rfl, hd⟩ := h.head
      obtain ⟨rfl, -⟩ := List.cons.inj htext
      rcases hd with hd | hd
      · rw [hdigit] at hd
        cases hd
      · exact absurd hd hpoint
  · rintro (⟨hword, rfl⟩ | ⟨hword, rfl⟩)
    · rw [hword]
      exact Magnitude.infinity
    · rw [hword]
      exact Magnitude.nan

/-- What begins like a word denotes what the word says, if anything. -/
theorem denotes_cons_iff {c : Char} {s : List Char} {x : Float} (hsign : c ≠ '+' ∧ c ≠ '-')
    (hdigit : c.isDigit = false) (hpoint : c ≠ '.') :
    Denotes (c :: s) x ↔ c :: s = infinityWord ∧ x = Binary.infinity false ∨
      c :: s = nanWord ∧ x = Binary.notANumber := by
  rw [← magnitude_cons_iff hdigit hpoint, ← denotes_append_iff Sign.none (unsigned_cons hsign),
    List.nil_append]

/-- There is no blank in a number. -/
theorem Denotes.not_isBlank {s : List Char} {x : Float} (h : Denotes s x) :
    ∀ c ∈ s, Text.isBlank c = false := by
  have hmarks : ['.', '+', '-', 'e', 'E'].all (!Text.isBlank ·) = true := by decide
  have hwords : (infinityWord ++ nanWord).all (!Text.isBlank ·) = true := by decide
  simp only [List.all_eq_true, Bool.not_eq_true'] at hmarks hwords
  obtain ⟨hsign, h⟩ := h
  -- a sign, one of the words, or a character of a numeral
  intro c hc
  rcases List.mem_append.1 hc with hc | hc
  · cases hsign with
    | none => cases hc
    | plus => exact hmarks c (by simp_all)
    | minus => exact hmarks c (by simp_all)
  · cases h with
    | infinity => exact hwords c (List.mem_append_left _ hc)
    | nan => exact hwords c (List.mem_append_right _ hc)
    | numeral h =>
      rcases h.chars c hc with hdigit | hmark
      · cases hblank : Text.isBlank c with
        | false => rfl
        | true =>
          rw [Text.not_isDigit_of_isBlank hblank] at hdigit
          cases hdigit
      · exact hmarks c hmark

end Number
end Scriptlet
