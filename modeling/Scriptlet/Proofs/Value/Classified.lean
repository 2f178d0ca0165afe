import Scriptlet.Proofs.Number.Grammar
import Scriptlet.Value

/-!
Texts that do not read as numbers.

A value is a number or a text, and a text may read as a number: the operators look into it.
`Value.ofText` leaves no such text, and a literal is none either, since no number begins with a quote
(`read?_of_startsQuoted`).  On values of which no text reads as a number, the kind alone decides what
an operator does (`asNumber?_of_classified`, `add_of_classified`).

That such values are the only ones that a program ever comes to is the subject of another module.
Here it is only about single values, and the crux is that numbers and literals cannot be mistaken for
each other.  A number begins with a sign, a digit, a point or a letter once it is trimmed, and a quote
is none of these.

A sum is classified whatever is added (`isClassified_add`), since `+` classifies its result itself.
-/

namespace Scriptlet

/-- The text without its trailing blanks. -/
def Text.trimEnd (s : List Char) : List Char := (s.reverse.dropWhile isBlank).reverse

/-- Before a first character that is no blank there is nothing to trim. -/
theorem Text.trim_cons {c : Char} {s : List Char} (h : isBlank c = false) :
    trim (c :: s) = trimEnd (c :: s) := by
  unfold trim trimEnd
  rw [List.dropWhile_cons_of_neg (by simp [h])]

/-- A first character that is no blank is not trimmed. -/
theorem Text.trimEnd_cons {c : Char} {s : List Char} (h : isBlank c = false) :
    ∃ rest, trimEnd (c :: s) = c :: rest := by
  unfold trimEnd
  rw [List.reverse_cons, List.dropWhile_append]
  split
  · rw [List.dropWhile_cons_of_neg (by simp [h])]
    exact ⟨[], rfl⟩
  · rw [List.reverse_append]
    exact ⟨_, rfl⟩

namespace Number

/-- No number begins with a quote. -/
theorem readExact?_quoteMark (s : List Char) : readExact? (quoteMark :: s) = none := by
  rw [Option.eq_none_iff_forall_ne_some]
  intro x hx
  rw [readExact?_iff, denotes_cons_iff (by decide) (by decide) (by decide)] at hx
  rcases hx with ⟨hword, -⟩ | ⟨hword, -⟩
  · simp [quoteMark, infinityWord] at hword
  · simp [quoteMark, nanWord] at hword

/-- A text that starts with a quote does not read as a number. -/
theorem read?_of_startsQuoted {s : String} (h : Value.startsQuoted s = true) : read? s = none := by
  obtain ⟨rest, hs⟩ := List.head?_eq_some_iff.1 (of_decide_eq_true h)
  have hblank : Text.isBlank quoteMark = false := by decide
  obtain ⟨trimmed, htrim⟩ := Text.trimEnd_cons (s := rest) hblank
  rw [read?, hs, Text.trim_cons hblank, htrim, readExact?_quoteMark]

end Number

namespace Value

/-- Is it a number, or a text that does not read as one? -/
def isClassified : Value → Bool
  | .number _ => true
  | .text s => (Number.read? s).isNone

theorem isClassified_text {s : String} : (text s).isClassified = true ↔ Number.read? s = .none :=
  Option.isNone_iff_eq_none

/-- The values that are classified are those that are operands of arithmetic exactly if they are
numbers. -/
theorem isClassified_iff {v : Value} :
    v.isClassified = true ↔ (v.asNumber?.isSome = true ↔ ∃ x, v = .number x) := by
  cases v with
  | number x => simp [isClassified, asNumber?]
  | text s => simp [isClassified, asNumber?, Option.isSome_iff_ne_none]

/-- Text from outside the literals is classified. -/
theorem isClassified_ofText (s : String) : (ofText s).isClassified = true := by
  unfold ofText
  split
  · next x hx =>
    split
    · next hquoted =>
      rw [Number.read?_of_startsQuoted hquoted] at hx
      cases hx
    · rfl
  · next hx => exact isClassified_text.2 hx

theorem isClassified_of_startsQuoted {s : String} (h : startsQuoted s = true) :
    (text s).isClassified = true := isClassified_text.2 (Number.read?_of_startsQuoted h)

/-- A sum is classified, whatever is added. -/
theorem isClassified_add (a b : Value) : (a.add b).isClassified = true := by
  unfold add
  split
  · rfl
  · exact isClassified_ofText _

/-- The number that a value is, if it is of that kind. -/
def number? : Value → Option Float
  | .number x => some x
  | .text _ => .none

/-- Adds two values by their kinds: two numbers are added, anything else is joined as text. -/
def addByKind : Value → Value → Value
  | .number x, .number y => .number (x + y)
  | a, b => ofText (a.observed ++ b.observed)

theorem addByKind_of_text {a b : Value} (h : a.number? = .none ∨ b.number? = .none) :
    a.addByKind b = ofText (a.observed ++ b.observed) := by
  cases a with
  | text s => rfl
  | number x =>
    cases b with
    | text s => rfl
    | number y => rcases h with h | h <;> cases h

/-- Nothing but a number is an operand of arithmetic. -/
theorem asNumber?_of_classified {v : Value} (h : v.isClassified = true) : v.asNumber? = v.number? := by
  cases v with
  | number x => rfl
  | text s => exact isClassified_text.1 h

/-- The kinds of the operands decide what `+` does. -/
theorem add_of_classified {a b : Value} (ha : a.isClassified = true) (hb : b.isClassified = true) :
    a.add b = a.addByKind b := by
  unfold add
  rw [asNumber?_of_classified ha, asNumber?_of_classified hb]
  cases a with
  | number x => cases b <;> rfl
  | text s => rfl

end Value
end Scriptlet
