import Scriptlet.Proofs.Number.ReadBack
import Scriptlet.Proofs.Tree.Origin
import Scriptlet.Proofs.Value.Classified

/-!
Texts whose quotes are delimiters.

A text is in order if it is a literal, or has no quote at all.  Of such a text the first character
tells whether it is a literal, so observing it takes off the delimiters and nothing else
(`observed_eq_verbatim`).  What is shown then has no quote, and so `+` makes texts that are in order
again: the text that it joins is never taken for a literal (`add_eq_joined`).

Two functions on values are given that do not look at first characters at all.  `verbatim` asks
whether a text is a literal, by looking for a body between its quotes, and leaves everything else as
it is.  `joined` adds numbers and joins texts, by what is verbatim in them.  On values that are in
order they come to the same as `observed` and `+`; on a text that starts with a quote and does not end
with one they differ.
-/

namespace Scriptlet
namespace Value

/-- The text between the quotes of a literal. -/
def literalBody? (s : String) : Option String :=
  match s.toList with
  | [] => Option.none
  | first :: rest =>
    if first = quoteMark ∧ rest.getLast? = some quoteMark ∧ quoteMark ∉ rest.dropLast then
      some (String.ofList rest.dropLast)
    else Option.none

/-- Is it a number, a literal, or a text without a quote? -/
def isWellQuoted : Value → Bool
  | .number _ => true
  | .text s => (literalBody? s).isSome || !s.toList.contains quoteMark

/-- The value with all its characters but the delimiters of a literal. -/
def verbatim : Value → String
  | .number x => Number.text x
  | .text s => (literalBody? s).getD s

/-- The value of a `+`: two numbers are added; else what is shown of the two is a number if it reads
as one, and a text as it stands if not. -/
def joined : Value → Value → Value
  | .number x, .number y => .number (x + y)
  | a, b =>
    match Number.read? (a.verbatim ++ b.verbatim) with
    | some x => .number x
    | Option.none => .text (a.verbatim ++ b.verbatim)

/-! ## Literals -/

variable {s : String}

theorem literalBody?_literal {body : List Char} (h : quoteMark ∉ body) :
    literalBody? (String.ofList (quoteMark :: (body ++ [quoteMark]))) =
      some (String.ofList body) := by
  unfold literalBody?
  rw [String.toList_ofList]
  dsimp only
  rw [List.dropLast_concat, if_pos ⟨rfl, List.getLast?_concat, h⟩]

theorem exists_of_literalBody? {body : String} (h : literalBody? s = some body) :
    quoteMark ∉ body.toList ∧ s = String.ofList (quoteMark :: (body.toList ++ [quoteMark])) := by
  unfold literalBody? at h
  split at h
  · cases h
  · next first rest hs =>
    split at h
    · next hends =>
      obtain ⟨rfl, hlast, hnone⟩ := hends
      cases h
      rw [String.toList_ofList]
      refine ⟨hnone, ?_⟩
      rw [List.dropLast_append_getLast? quoteMark hlast, ← hs, String.ofList_toList]
    · cases h

/-- The texts with a body between quotes are the literals. -/
theorem isSome_literalBody?_iff : (literalBody? s).isSome = true ↔ IsLiteral s := by
  constructor
  · intro h
    obtain ⟨body, hbody⟩ := Option.isSome_iff_exists.1 h
    obtain ⟨hnone, hs⟩ := exists_of_literalBody? hbody
    exact ⟨body.toList, hnone, hs⟩
  · rintro ⟨body, hnone, rfl⟩
    rw [literalBody?_literal hnone]
    rfl

theorem isWellQuoted_text_iff :
    (text s).isWellQuoted = true ↔ IsLiteral s ∨ quoteMark ∉ s.toList := by
  rw [isWellQuoted, Bool.or_eq_true, isSome_literalBody?_iff]
  simp

/-! ## What is shown -/

/-- A text without a quote is no literal. -/
theorem literalBody?_of_notMem (h : quoteMark ∉ s.toList) : literalBody? s = Option.none := by
  cases hbody : literalBody? s with
  | none => rfl
  | some body =>
    obtain ⟨-, hs⟩ := exists_of_literalBody? hbody
    rw [hs, String.toList_ofList] at h
    exact absurd List.mem_cons_self h

theorem startsQuoted_of_notMem (h : quoteMark ∉ s.toList) : startsQuoted s = false := by
  refine decide_eq_false fun hhead => h ?_
  obtain ⟨rest, hs⟩ := List.head?_eq_some_iff.1 hhead
  rw [hs]
  exact List.mem_cons_self

/-- **Only delimiters are taken off** a value that is in order. -/
theorem observed_eq_verbatim {v : Value} (h : v.isWellQuoted = true) : v.observed = v.verbatim := by
  cases v with
  | number x => rfl
  | text s =>
    rcases isWellQuoted_text_iff.1 h with ⟨body, hnone, rfl⟩ | hnone
    · rw [observed_literal, verbatim, literalBody?_literal hnone]
      rfl
    · rw [observed_text_of_not_startsQuoted (startsQuoted_of_notMem hnone), verbatim,
        literalBody?_of_notMem hnone]
      rfl

end Value

/-- Numbers are written without quotes. -/
theorem Number.quoteMark_notMem_text (x : Float) : quoteMark ∉ (Number.text x).toList := by
  have hmagnitude : ∀ d : Decimal, quoteMark ∉ d.positional := by
    intro d hmem
    rcases d.positional_chars.2 quoteMark hmem with hdigit | hpoint
    · exact absurd hdigit (by decide)
    · exact absurd hpoint (by decide)
  have hsign : quoteMark ∉ (if Binary.isNegative x then ['-'] else []) := by
    split <;> decide
  -- a number is written as a word or as digits, perhaps with a sign
  unfold Number.text Number.write
  rw [String.toList_ofList]
  split
  · decide
  split
  · rw [List.mem_append, not_or]
    exact ⟨hsign, by decide⟩
  split
  · exact hmagnitude ⟨0, 0⟩
  · rw [List.mem_append, not_or]
    exact ⟨hsign, hmagnitude _⟩

namespace Value

/-- What is shown of a value that is in order has no quote. -/
theorem quoteMark_notMem_verbatim {v : Value} (h : v.isWellQuoted = true) :
    quoteMark ∉ v.verbatim.toList := by
  cases v with
  | number x => exact Number.quoteMark_notMem_text x
  | text s =>
    rcases isWellQuoted_text_iff.1 h with ⟨body, hnone, rfl⟩ | hnone
    · rw [verbatim, literalBody?_literal hnone, Option.getD_some, String.toList_ofList]
      exact hnone
    · rw [verbatim, literalBody?_of_notMem hnone]
      exact hnone

/-! ## Classifying and joining

What `+` makes of texts that are in order. -/

/-- A text without a quote is classified by whether it reads as a number, and by nothing else. -/
theorem ofText_of_notMem (h : quoteMark ∉ s.toList) :
    ofText s = match Number.read? s with
      | some x => .number x
      | Option.none => .text s := by
  unfold ofText
  cases Number.read? s with
  | none => rfl
  | some x =>
    dsimp only
    rw [startsQuoted_of_notMem h, if_neg Bool.false_ne_true]

theorem isWellQuoted_ofText (h : quoteMark ∉ s.toList) : (ofText s).isWellQuoted = true := by
  rw [ofText_of_notMem h]
  split
  · rfl
  · exact isWellQuoted_text_iff.2 (Or.inr h)

variable {a b : Value}

theorem notMem_append_observed (ha : a.isWellQuoted = true) (hb : b.isWellQuoted = true) :
    quoteMark ∉ (a.observed ++ b.observed).toList := by
  rw [observed_eq_verbatim ha, observed_eq_verbatim hb, String.toList_append, List.mem_append, not_or]
  exact ⟨quoteMark_notMem_verbatim ha, quoteMark_notMem_verbatim hb⟩

/-- A sum of values that are in order is in order. -/
theorem isWellQuoted_add (ha : a.isWellQuoted = true) (hb : b.isWellQuoted = true) :
    (a.add b).isWellQuoted = true := by
  unfold add
  split
  · rfl
  · exact isWellQuoted_ofText (notMem_append_observed ha hb)

theorem joined_of_text (h : a.number? = Option.none ∨ b.number? = Option.none) :
    a.joined b = match Number.read? (a.verbatim ++ b.verbatim) with
      | some x => .number x
      | Option.none => .text (a.verbatim ++ b.verbatim) := by
  cases a with
  | text s => rfl
  | number x =>
    cases b with
    | text s => rfl
    | number y => rcases h with h | h <;> cases h

/-- **A joined text is never stripped again**: what `+` makes of classified values that are in order
is the number that their characters read as, or these characters. -/
theorem add_eq_joined (ha : a.isClassified = true) (hb : b.isClassified = true)
    (hqa : a.isWellQuoted = true) (hqb : b.isWellQuoted = true) : a.add b = a.joined b := by
  have hjoin : a.number? = Option.none ∨ b.number? = Option.none → a.addByKind b = a.joined b := by
    intro htext
    rw [addByKind_of_text htext, joined_of_text htext,
      ofText_of_notMem (notMem_append_observed hqa hqb), observed_eq_verbatim hqa,
      observed_eq_verbatim hqb]
  rw [add_of_classified ha hb]
  cases a with
  | text s => exact hjoin (Or.inl rfl)
  | number x =>
    cases b with
    | text s => exact hjoin (Or.inr rfl)
    | number y => rfl

/-- What `+` makes of two values that are not both numbers goes by what is shown of them: it is the
number that this reads as, or else a text without a quote, which is shown as it stands. -/
structure Joins (a b : Value) : Prop where
  text : Number.read? (a.observed ++ b.observed) = Option.none →
    a.add b = .text (a.observed ++ b.observed) ∧
      quoteMark ∉ (a.observed ++ b.observed).toList ∧
      (Value.text (a.observed ++ b.observed)).observed = a.observed ++ b.observed
  number : ∀ x, Number.read? (a.observed ++ b.observed) = some x → a.add b = .number x

theorem joins_of_text (ha : a.isClassified = true) (hb : b.isClassified = true)
    (hqa : a.isWellQuoted = true) (hqb : b.isWellQuoted = true)
    (htext : a.number? = Option.none ∨ b.number? = Option.none) : a.Joins b := by
  have hfree := notMem_append_observed hqa hqb
  have hadd : a.add b = ofText (a.observed ++ b.observed) := by
    rw [add_of_classified ha hb, addByKind_of_text htext]
  rw [ofText_of_notMem hfree] at hadd
  constructor
  · intro hread
    rw [hread] at hadd
    exact ⟨hadd, hfree, observed_text_of_not_startsQuoted (startsQuoted_of_notMem hfree)⟩
  · intro x hread
    rw [hread] at hadd
    exact hadd

end Value
end Scriptlet
