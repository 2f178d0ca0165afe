import Scriptlet.Proofs.Number.Grammar

/-!
Numbers read through a more permissive reader.

There is a reader that takes the words for infinity and for no number in any case, and `inf` besides
(`Number.permissive?`).  It can be made to read the numbers of the language by a patch in front of it:
the two words are compared, `Infinity` is replaced by the spelling that the reader knows, and a text
with any other letter than `e` and `E` is refused (`Number.patched?`).

Each of the three steps by itself lets through too much or too little.  Together they come to the
grammar: every word of the permissive reader has an `n` in it, which the filter refuses
(`Number.refuses_n`), and no numeral has a letter that it refuses (`Number.not_refuses_of_numeral`).
What the filter takes for a letter beyond the ASCII range does not matter, since no numeral goes
there.

The filter goes by a predicate on characters that is not spelled out.  It is asked to be right about
ASCII only, which every notion of a letter is.  So nothing depends on the tables of letters that one
or the other version of the standard has.

Two consequences are spelled out besides, since they are what the patch is for: other spellings of the
two words are refused with any sign (`spelling_read?`), and so are two signs (`oneSign_read?`).

Main statement: `Number.reads_exactly`.
-/

namespace Scriptlet
namespace Number

open Decimal (Sign Numeral)

/-! ## The reader and the patch -/

/-- The words that the permissive reader takes for infinity, in lower case. -/
def looseInfinities : List (List Char) :=
  [['i', 'n', 'f'], ['i', 'n', 'f', 'i', 'n', 'i', 't', 'y']]

/-- The word that it takes for no number. -/
def looseNan : List Char := ['n', 'a', 'n']

/-- The permissive reader: one sign or none, and then a decimal numeral or a word in any case.  It
does not tell the sign of what is no number. -/
def permissive? (s : List Char) : Option Float :=
  let (negative, body) := splitSign s
  let word := body.map Char.toLower
  if word ∈ looseInfinities then some (Binary.infinity negative)
  else if word = looseNan then some Binary.notANumber
  else (Decimal.read? body).map fun x => x.toFloat negative

/-- The text with every occurrence of `old` replaced by `new`, from the left.  The number says how
many characters still belong to an occurrence that was replaced. -/
def replaceAll (old new : List Char) : Nat → List Char → List Char
  | _, [] => []
  | n + 1, _ :: s => replaceAll old new n s
  | 0, c :: s =>
    if old <+: c :: s then new ++ replaceAll old new (old.length - 1) s
    else c :: replaceAll old new 0 s

/-- Is `c` a letter that comes in no numeral? -/
def refuses (alphabetic : Char → Bool) (c : Char) : Bool := alphabetic c && c ≠ 'e' && c ≠ 'E'

/-- Reads a number through the permissive reader.  `Infinity` gets the spelling that this reader
knows, and no other letter than `e` and `E` comes through. -/
def patched? (alphabetic : Char → Bool) (s : String) : Option Float :=
  let trimmed := Text.trim s.toList
  let unsigned := (splitSign trimmed).2
  if unsigned = infinityWord then permissive? (replaceAll infinityWord ['i', 'n', 'f'] 0 trimmed)
  else if unsigned = nanWord then some Binary.notANumber
  else if unsigned.any (refuses alphabetic) then none
  else permissive? trimmed

/-! ### The patch lets through what the grammar allows -/

/-- Only two characters become this letter when capitals are made small. -/
theorem eq_of_toLower_eq_n {c : Char} (h : c.toLower = 'n') : c = 'n' ∨ c = 'N' := by
  unfold Char.toLower at h
  split at h
  · have hval : c.val + ('a'.val - 'A'.val) = 'N'.val + ('a'.val - 'A'.val) := congrArg Char.val h
    exact Or.inr (Char.ext ((UInt32.add_left_inj _).1 hval))
  · exact Or.inl h

/-- All the words that the permissive reader takes have an `n` in them. -/
theorem exists_n_of_loose {word : List Char} (h : word.map Char.toLower ∈ looseNan :: looseInfinities) :
    ∃ c ∈ word, c = 'n' ∨ c = 'N' := by
  have hn : ∀ w ∈ looseNan :: looseInfinities, 'n' ∈ w := by
    simp only [looseInfinities, List.forall_mem_cons]
    decide
  obtain ⟨c, hc, hlower⟩ := List.mem_map.1 (hn _ h)
  exact ⟨c, hc, eq_of_toLower_eq_n hlower⟩

/-- None of them begins with a sign. -/
theorem unsigned_of_loose {word : List Char}
    (h : word.map Char.toLower ∈ looseNan :: looseInfinities) : Unsigned word := by
  cases word with
  | nil => simp [looseNan, looseInfinities] at h
  | cons c word =>
    refine unsigned_cons ⟨?_, ?_⟩
    · rintro rfl
      simp [looseNan, looseInfinities] at h
    · rintro rfl
      simp [looseNan, looseInfinities] at h

/-- No numeral has an `n` in it. -/
theorem not_numeral_of_n {s : List Char} {d : Decimal} (h : ∃ c ∈ s, c = 'n' ∨ c = 'N') :
    ¬ Numeral s d := by
  intro hnumeral
  obtain ⟨c, hc, rfl | rfl⟩ := h
  · have hchar := hnumeral.chars 'n' hc
    revert hchar
    decide
  · have hchar := hnumeral.chars 'N' hc
    revert hchar
    decide

/-- Behind a sign the permissive reader goes by the words and by the numerals. -/
theorem permissive?_append {sign s : List Char} {negative : Bool} (hsign : Sign sign negative)
    (hs : Unsigned s) : permissive? (sign ++ s) =
      if s.map Char.toLower ∈ looseInfinities then some (Binary.infinity negative)
      else if s.map Char.toLower = looseNan then some Binary.notANumber
      else (Decimal.read? s).map fun x => x.toFloat negative := by
  unfold permissive?
  rw [splitSign_append hsign hs]

theorem isSome_permissive? {sign word : List Char} {negative : Bool} (hsign : Sign sign negative)
    (h : word.map Char.toLower ∈ looseNan :: looseInfinities) :
    (permissive? (sign ++ word)).isSome = true := by
  rw [permissive?_append hsign (unsigned_of_loose h)]
  rcases List.mem_cons.1 h with hnan | hinfinity
  · split
    · rfl
    · rfl
  · rw [if_pos hinfinity]
    rfl

/-- A numeral is read by the permissive reader as it is here. -/
theorem permissive?_numeral {sign s : List Char} {negative : Bool} {d : Decimal}
    (hsign : Sign sign negative) (h : Numeral s d) :
    permissive? (sign ++ s) = some (d.toFloat negative) := by
  have hloose : s.map Char.toLower ∉ looseNan :: looseInfinities :=
    fun hloose => not_numeral_of_n (exists_n_of_loose hloose) h
  rw [List.mem_cons, not_or] at hloose
  rw [permissive?_append hsign (@Magnitude.numeral negative s d h).unsigned,
    if_neg hloose.2, if_neg hloose.1, Decimal.read?_iff.2 h]
  rfl

variable {alphabetic : Char → Bool}

/-- Whatever the filter takes for a letter: it refuses an `n` and no character of a numeral. -/
theorem refuses_n (hascii : ∀ c : Char, c.toNat < 128 → alphabetic c = c.isAlpha) {c : Char}
    (h : c = 'n' ∨ c = 'N') : refuses alphabetic c = true := by
  unfold refuses
  rcases h with rfl | rfl
  · rw [hascii _ (by decide)]
    decide
  · rw [hascii _ (by decide)]
    decide

/-- A numeral has digits, points, signs and its letter, and the filter lets them through. -/
theorem not_refuses_of_numeral (hascii : ∀ c : Char, c.toNat < 128 → alphabetic c = c.isAlpha)
    {s : List Char} {d : Decimal} (h : Numeral s d) : ∀ c ∈ s, refuses alphabetic c = false := by
  intro c hc
  unfold refuses
  rcases h.chars c hc with hdigit | hmark
  · -- below 128 the class is that of ASCII letters, and a digit is none of them
    have hcode := toNat_of_isDigit hdigit
    have halpha : c.isAlpha = false := by
      cases halpha : c.isAlpha with
      | false => rfl
      | true =>
        have hletter := Text.le_toNat_of_isLetter (Text.isLetter_of_isAlpha halpha)
        omega
    rw [hascii c (by omega), halpha]
    rfl
  · simp only [List.mem_cons, List.not_mem_nil, or_false] at hmark
    rcases hmark with rfl | rfl | rfl | rfl | rfl
    all_goals
      rw [hascii _ (by decide)]
      decide

/-- The replacement gives infinity the spelling that the permissive reader knows. -/
theorem permissive?_replaced {sign : List Char} {negative : Bool} (hsign : Sign sign negative) :
    permissive? (replaceAll infinityWord ['i', 'n', 'f'] 0 (sign ++ infinityWord)) =
      some (Binary.infinity negative) := by
  cases hsign with
  | none => rfl
  | plus => rfl
  | minus => rfl

/-- A number with a letter that is refused is one of the words. -/
theorem readExact?_of_refused (hascii : ∀ c : Char, c.toNat < 128 → alphabetic c = c.isAlpha)
    {text : List Char} (hinfinity : (splitSign text).2 ≠ infinityWord)
    (hnan : (splitSign text).2 ≠ nanWord)
    (hrefused : (splitSign text).2.any (refuses alphabetic) = true) : readExact? text = none := by
  rw [Option.eq_none_iff_forall_ne_some]
  intro x hx
  obtain ⟨hsign, h⟩ := readExact?_iff.1 hx
  rw [splitSign_append hsign h.unsigned] at hinfinity hnan hrefused
  cases h with
  | infinity => exact hinfinity rfl
  | nan => exact hnan rfl
  | numeral h =>
    obtain ⟨c, hc, hletter⟩ := List.any_eq_true.1 hrefused
    rw [not_refuses_of_numeral hascii h c hc] at hletter
    cases hletter

/-- Behind the filter the permissive reader has no words of its own: they all have an `n`. -/
theorem permissive?_of_passed (hascii : ∀ c : Char, c.toNat < 128 → alphabetic c = c.isAlpha)
    {text : List Char} (hinfinity : (splitSign text).2 ≠ infinityWord)
    (hnan : (splitSign text).2 ≠ nanWord)
    (hpassed : ¬ (splitSign text).2.any (refuses alphabetic) = true) :
    permissive? text = readExact? text := by
  have hloose : (splitSign text).2.map Char.toLower ∉ looseNan :: looseInfinities := by
    intro hloose
    obtain ⟨c, hc, hn⟩ := exists_n_of_loose hloose
    exact hpassed (List.any_eq_true.2 ⟨c, hc, refuses_n hascii hn⟩)
  rw [List.mem_cons, not_or] at hloose
  unfold permissive? readExact?
  dsimp only
  rw [if_neg hloose.2, if_neg hloose.1, if_neg hinfinity, if_neg hnan]

/-- **The patched reader reads the numbers.** -/
theorem patched?_eq_read? (hascii : ∀ c : Char, c.toNat < 128 → alphabetic c = c.isAlpha)
    (s : String) : patched? alphabetic s = read? s := by
  unfold patched? read?
  generalize Text.trim s.toList = text
  obtain ⟨sign, hsign, htext⟩ := sign_splitSign text
  dsimp only
  split
  · next hword =>
    rw [hword] at htext
    rw [htext, permissive?_replaced hsign, readExact?_iff.2 (Denotes.mk hsign Magnitude.infinity)]
  split
  · next hword =>
    rw [hword] at htext
    rw [htext, readExact?_iff.2 (Denotes.mk hsign Magnitude.nan)]
  next hinfinity hnan =>
  split
  · next hrefused => rw [readExact?_of_refused hascii hinfinity hnan hrefused]
  · next hpassed => exact permissive?_of_passed hascii hinfinity hnan hpassed

/-! ## Exactly the numbers -/

/-- A reading accepts exactly the numbers of the language. -/
structure ReadsExactly (read : String → Option Float) : Prop where
  /-- A text is read as the number it denotes when the blanks around it are gone. -/
  denoted : ∀ s x, read s = some x ↔ Denotes (Text.trim s.toList) x
  /-- The value of a numeral is the one it has for the permissive reader. -/
  numeral : ∀ s sign body negative d, Sign sign negative → Numeral body d →
    Text.trim s.toList = sign ++ body → read s = permissive? (Text.trim s.toList)
  /-- The words are spelled in one way, of all those that the permissive reader takes. -/
  spelling : ∀ s sign word negative, Sign sign negative →
    word.map Char.toLower ∈ looseNan :: looseInfinities → word ≠ infinityWord → word ≠ nanWord →
    Text.trim s.toList = sign ++ word →
    (permissive? (Text.trim s.toList)).isSome = true ∧ read s = none
  /-- There is one sign at most. -/
  oneSign : ∀ s c d rest, c = '+' ∨ c = '-' → d = '+' ∨ d = '-' →
    Text.trim s.toList = c :: d :: rest → read s = none
  /-- There is no blank inside. -/
  noBlank : ∀ s, (∃ c ∈ Text.trim s.toList, Text.isBlank c = true) → read s = none

/-- Other spellings of the words are no numbers. -/
theorem spelling_read? {s : String} {sign word : List Char} {negative : Bool}
    (hsign : Sign sign negative) (hloose : word.map Char.toLower ∈ looseNan :: looseInfinities)
    (hinfinity : word ≠ infinityWord) (hnan : word ≠ nanWord)
    (htext : Text.trim s.toList = sign ++ word) : read? s = none := by
  rw [Option.eq_none_iff_forall_ne_some]
  intro x hx
  rw [read?_iff, htext, denotes_append_iff hsign (unsigned_of_loose hloose)] at hx
  cases hx with
  | infinity => exact hinfinity rfl
  | nan => exact hnan rfl
  | numeral h => exact not_numeral_of_n (exists_n_of_loose hloose) h

theorem oneSign_read? {s : String} {c d : Char} {rest : List Char} (hc : c = '+' ∨ c = '-')
    (hd : d = '+' ∨ d = '-') (htext : Text.trim s.toList = c :: d :: rest) : read? s = none := by
  have hunsigned : ∀ {e : Char} {s : List Char}, e = '+' ∨ e = '-' → ¬ Unsigned (e :: s) := by
    intro e s he h
    rcases he with rfl | rfl
    · exact (h _ rfl).1 rfl
    · exact (h _ rfl).2 rfl
  -- one of the two signs is left to the magnitude, and a magnitude begins with none
  rw [Option.eq_none_iff_forall_ne_some]
  intro x hx
  rw [read?_iff, htext] at hx
  generalize hwhole : c :: d :: rest = whole at hx
  obtain ⟨hsign, h⟩ := hx
  have hs := h.unsigned
  cases hsign with
  | none =>
    rw [List.nil_append] at hwhole
    rw [← hwhole] at hs
    exact hunsigned hc hs
  | plus =>
    obtain ⟨rfl, rfl⟩ := List.cons.inj hwhole
    exact hunsigned hd hs
  | minus =>
    obtain ⟨rfl, rfl⟩ := List.cons.inj hwhole
    exact hunsigned hd hs

/-- **Exactly the numbers are read.**  The running reader accepts the numbers of the grammar and no
other text, and it agrees everywhere with the permissive reader that is patched. -/
theorem reads_exactly (hascii : ∀ c : Char, c.toNat < 128 → alphabetic c = c.isAlpha) :
    ReadsExactly read? ∧ ∀ s, patched? alphabetic s = read? s where
  left := {
    denoted := fun s x => read?_iff
    numeral := by
      intro s sign body negative d hsign h htext
      rw [htext, permissive?_numeral hsign h, read?_iff, htext]
      exact Denotes.mk hsign (Magnitude.numeral h)
    spelling := by
      intro s sign word negative hsign hloose hinfinity hnan htext
      refine ⟨?_, spelling_read? hsign hloose hinfinity hnan htext⟩
      rw [htext]
      exact isSome_permissive? hsign hloose
    oneSign := fun s c d rest hc hd htext => oneSign_read? hc hd htext
    -- a blank inside is left where it is, and no grammar has one
    noBlank := by
      rintro s ⟨c, hc, hblank⟩
      rw [Option.eq_none_iff_forall_ne_some]
      intro x hx
      rw [(read?_iff.1 hx).not_isBlank c hc] at hblank
      cases hblank }
  right := patched?_eq_read? hascii

/-- With the letters of the language for the filter. -/
theorem reads_exactly_isLetter :
    (∀ c : Char, c.toNat < 128 → Text.isLetter c = c.isAlpha) ∧
      patched? Text.isLetter " -Infinity\n" = some (Binary.infinity true) ∧
      patched? Text.isLetter "-inf" = none ∧ patched? Text.isLetter "+-5" = none := by
  have hascii : ∀ c : Char, c.toNat < 128 → Text.isLetter c = c.isAlpha := fun c hc => if_pos hc
  obtain ⟨hread, hpatched⟩ := reads_exactly hascii
  refine ⟨hascii, ?_, ?_, ?_⟩
  · rw [hpatched, hread.denoted]
    exact Denotes.mk Sign.minus Magnitude.infinity
  · rw [hpatched]
    exact (hread.spelling "-inf" ['-'] ['i', 'n', 'f'] true Sign.minus (by decide) (by decide)
      (by decide) (by decide)).2
  · rw [hpatched]
    exact hread.oneSign "+-5" '+' '-' ['5'] (by decide) (by decide) (by decide)

end Number
end Scriptlet
