import Scriptlet.Proofs.Token.Segmentation
import Scriptlet.Proofs.Value.Classified

/-!
Names that read as numbers.

A variable is looked up only if its name does not read as a number.  A name may begin with an `e`, and
digits, points and blanks that separate no tokens may stand in it, so that it has much of a numeral.
But it begins with a letter, and no numeral does: what is left are the two words for a number, perhaps
with such blanks behind them (`Number.read?_identifier`).

This matters because the evaluator reads the name before it looks for the variable.  A program with a
variable of such a name assigns it in vain.  So the words are exactly the exceptions in every
statement about what a variable is read as, and here it is shown that there are no others.

What is read as a number is trimmed first, and blanks that separate no tokens are trimmed like any
others.  That is the only reason for the words not being two but two with blanks behind them.
-/

namespace Scriptlet

/-- A word for a number, with or without blanks behind it. -/
def Number.IsWord (name : String) : Prop :=
  Text.trimEnd name.toList = infinityWord ∨ Text.trimEnd name.toList = nanWord

instance {name : String} : Decidable (Number.IsWord name) := inferInstanceAs (Decidable (_ ∨ _))

/-- Every token that is delivered was cut out of the text, also before a fault. -/
theorem TokenStream.exists_fits {source : String} {t : Token}
    (h : t ∈ (ofSource source).delivered) (hfinish : t.kind ≠ .finish) :
    ∃ text following, Fits text t.kind following := by
  have hending := @TokenStream.eq_endMarker source
  have hsegments := segments_ofText 1 (eraseComments source.toList)
  rw [← ofSource] at hsegments
  generalize ofSource source = stream at h hending hsegments
  generalize eraseComments source.toList = s at hsegments
  cases hsegments with
  -- the end marker is the only token that is delivered and has no text
  | finish hsegmented =>
    rcases List.mem_append.1 h with h | h
    · obtain ⟨text, following, hfits, -⟩ := hsegmented.exists_fits t h
      exact ⟨text, following, hfits⟩
    · rw [List.mem_singleton.1 h, hending rfl] at hfinish
      exact absurd rfl hfinish
  | misfit hsegmented hmisfit =>
    obtain ⟨text, following, hfits, -⟩ := hsegmented.exists_fits t h
    exact ⟨text, following, hfits⟩

/-- A name is the word that it was cut out as, and begins with a letter. -/
theorem Fits.identifier {text following : List Char} {name : String}
    (h : Fits text (.identifier name) following) :
    ∃ c cs, name.toList = c :: cs ∧ Text.isLetter c = true := by
  generalize hkind : Token.Kind.identifier name = kind at h
  cases h with
  | numeral => cases hkind
  | literal => cases hkind
  | symbol => cases hkind
  | @word c cs following hletter hcs hends =>
    refine ⟨c, cs, ?_, hletter⟩
    unfold wordKind at hkind
    split at hkind
    · cases hkind
    · obtain rfl := Token.Kind.identifier.inj hkind
      exact String.toList_ofList

/-- What begins with a letter is a number only if it is one of the two words. -/
theorem Number.read?_of_isLetter {name : String} {c : Char} {cs : List Char}
    (hname : name.toList = c :: cs) (hletter : Text.isLetter c = true) {x : Float} :
    read? name = some x ↔ Text.trimEnd name.toList = infinityWord ∧ x = Binary.infinity false ∨
      Text.trimEnd name.toList = nanWord ∧ x = Binary.notANumber := by
  have hcode := Text.le_toNat_of_isLetter hletter
  -- a letter is no sign and no digit, so only the words are left
  have hne : ∀ d : Char, d.toNat < 65 → c ≠ d := by
    rintro d hd rfl
    omega
  have hblank : Text.isBlank c = false := by
    cases hblank : Text.isBlank c with
    | false => rfl
    | true =>
      rw [Text.not_isLetter_of_isBlank hblank] at hletter
      cases hletter
  obtain ⟨rest, hrest⟩ := Text.trimEnd_cons (s := cs) hblank
  rw [read?_iff, hname, Text.trim_cons hblank, hrest]
  exact denotes_cons_iff ⟨hne '+' (by decide), hne '-' (by decide)⟩
    (Text.not_isDigit_of_isLetter hletter) (hne '.' (by decide))

variable {source name : String} {t : Token}

/-- **The names that read as numbers** are the two words, as far as a source text has such names. -/
theorem Number.read?_identifier (h : t ∈ (TokenStream.ofSource source).delivered)
    (hkind : t.kind = .identifier name) {x : Float} :
    read? name = some x ↔ Text.trimEnd name.toList = infinityWord ∧ x = Binary.infinity false ∨
      Text.trimEnd name.toList = nanWord ∧ x = Binary.notANumber := by
  obtain ⟨text, following, hfits⟩ := TokenStream.exists_fits h (by rw [hkind]; exact nofun)
  rw [hkind] at hfits
  obtain ⟨c, cs, hname, hletter⟩ := hfits.identifier
  exact read?_of_isLetter hname hletter

theorem Number.isSome_read?_identifier (h : t ∈ (TokenStream.ofSource source).delivered)
    (hkind : t.kind = .identifier name) : (read? name).isSome = true ↔ IsWord name := by
  rw [Option.isSome_iff_exists]
  constructor
  · rintro ⟨x, hx⟩
    exact ((read?_identifier h hkind).1 hx).imp And.left And.left
  · rintro (hword | hword)
    · exact ⟨_, (read?_identifier h hkind).2 (Or.inl ⟨hword, rfl⟩)⟩
    · exact ⟨_, (read?_identifier h hkind).2 (Or.inr ⟨hword, rfl⟩)⟩

end Scriptlet
