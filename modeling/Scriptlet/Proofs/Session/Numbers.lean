import Scriptlet.Proofs.Number.Canonical
import Scriptlet.Proofs.Session.Line
import Scriptlet.Proofs.Value.Quoting

/-!
Numbers that are passed on as text.

A program hands a number on in one way only, as the text that stands for it: on a line that it writes,
or joined to another value.  Wherever a text comes back, from a line that is read or out of a
concatenation, it is classified again, and a text that was written for a number is classified as this
number.  So numbers are not changed on their way, but for the sign of zero, and the second time
nothing is changed.

There are two ways and they meet in one lemma.  Written, the text of the number is on a line of the
output; if that line is the next one of the input, the name gets what the line is classified as.
Joined, the text is put before or behind what is shown of the other value; if that is nothing, it is
classified by itself.  In both the text of a number is given to `Value.ofText`, which takes it for the
number (`ofText_text`).

Main statement: `Value.readsBack`.
-/

namespace Scriptlet
namespace Value

/-- The text of a number is taken for the number. -/
theorem ofText_text (x : Float) : ofText (Number.text x) = .number (Number.canonical x) := by
  rw [ofText_of_notMem (Number.quoteMark_notMem_text x), Number.read?_text]

/-- What is shown as nothing is no number. -/
theorem asNumber?_of_observed_empty {v : Value} (h : v.observed = "") :
    v.asNumber? = Option.none := by
  have hempty : Number.read? "" = Option.none := by decide
  cases v with
  | number x =>
    have hread := Number.read?_text x
    rw [show Number.text x = "" from h, hempty] at hread
    cases hread
  | text s =>
    cases hquoted : startsQuoted s with
    | true => exact Number.read?_of_startsQuoted hquoted
    | false =>
      rw [observed_text_of_not_startsQuoted hquoted] at h
      rw [h]
      exact hempty

/-- Values that are not both numbers are joined by what is shown of them. -/
theorem add_of_asNumber?_eq_none {a b : Value}
    (h : a.asNumber? = Option.none ∨ b.asNumber? = Option.none) :
    a.add b = ofText (a.observed ++ b.observed) := by
  unfold add
  split
  · next ha hb =>
    rw [ha, hb] at h
    rcases h with h | h <;> cases h
  · rfl

end Value

namespace Output

/-- A stream that accepts all of the bytes has them behind what it had. -/
theorem written_of_accepted {o o' : Output} {bytes : ByteArray} (h : o.write bytes = (true, o')) :
    o'.written = o.written ++ bytes := by
  unfold write at h
  split at h
  · cases h
    rfl
  · split at h
    · cases h
      rfl
    · cases h

end Output

namespace Evaluation

variable {p : Program} {n line own : Nat} {s t u : Session}

/-- A write that ends has put the value on a line of the output. -/
theorem written_of_evaluate_write {expression : Node} {v : Value}
    (hvalue : valueOf (evaluate p n) expression s = .ok v t)
    (h : evaluate p (n + 1) ⟨.write, [expression], line⟩ s = .ok .normal u) :
    u.output.written = t.output.written ++ (v.observed.push '\n').toUTF8 := by
  rw [evaluate_succ, step_write, bind_of_ok hvalue] at h
  -- the statement has ended normally, so the line was accepted
  rcases hwrite : t.output.write (v.observed.push '\n').toUTF8 with ⟨accepted, output⟩
  cases accepted with
  | true =>
    have hline : writeLine line v.observed t = .ok () { t with output := output } :=
      @Request.answer_write_of_accepted ⟨.write, [expression], line⟩ _ _ _ hwrite
    rw [bind_of_ok hline] at h
    cases h
    exact Output.written_of_accepted hwrite
  | false =>
    have hline : writeLine line v.observed t =
        .error (.fault (.onLine line brokenPipe)) { t with output := output } :=
      @Request.answer_write_of_refused ⟨.write, [expression], line⟩ _ _ _ hwrite
    rw [bind_of_error hline] at h
    cases h

/-- A read takes a line and gives its text, classified, to the name. -/
theorem evaluate_read {name text : String} {rest : List UInt8} (hbreak : '\n' ∉ text.toList)
    (hreturn : '\r' ∉ text.toList) (h : s.input = Text.bytes (text.push '\n') ++ rest) :
    evaluate p (n + 1) ⟨.read, [.leaf (.identifier name) own], line⟩ s =
      .ok .normal { s with
        input := rest
        memory := s.memory.insert s.current name (.ofText text) } := by
  have hline : nextLine line name s = .ok text { s with input := rest } :=
    @Request.answer_read_line text rest ⟨.read, [], line⟩ name s hbreak hreturn h
  rw [evaluate_succ, step_read, bind_of_ok hline]
  rfl

end Evaluation

namespace Value

open Evaluation

/-- What becomes of a number that is put into text: `y` is what it comes back as. -/
structure ReadsBack (x y : Float) : Prop where
  read : Number.read? (Number.text x) = some y
  equal : x.isNaN = false → (y == x) = true
  nan : x.isNaN = true → y.isNaN = true
  zero : (x == 0) = true → y = 0
  classified : ofText (Number.text x) = .number y
  again : Number.text y = Number.text x
  /-- No two numbers have the same text. -/
  unique : ∀ z, Number.text z = Number.text x ↔ Binary.Same z x
  /-- A concatenation that leaves the text alone. -/
  beside : ∀ e : Value, e.observed = "" →
    (number x).add e = number y ∧ e.add (number x) = number y
  /-- A concatenation that has the text for its result, whatever it is made of. -/
  joined : ∀ a b : Value, a.asNumber? = Option.none ∨ b.asNumber? = Option.none →
    a.observed ++ b.observed = Number.text x → a.add b = number y
  /-- What one program writes and another one reads. -/
  passed : ∀ (p : Program) (n line : Nat) (expression : Node) (s t u : Session),
    valueOf (evaluate p n) expression s = .ok (number x) t →
    evaluate p (n + 1) ⟨.write, [expression], line⟩ s = .ok .normal u →
    ∃ bytes : ByteArray, u.output.written = t.output.written ++ bytes ∧
      ∀ (q : Program) (m line own : Nat) (name : String) (s : Session) (rest : List UInt8),
        s.input = bytes.data.toList ++ rest →
        evaluate q (m + 1) ⟨.read, [.leaf (.identifier name) own], line⟩ s =
          .ok .normal { s with
            input := rest
            memory := s.memory.insert s.current name (number y) }

/-- The text of a number is on one line. -/
theorem notMem_text_of_isBlank {c : Char} (h : Text.isBlank c = true) (x : Float) :
    c ∉ (Number.text x).toList := by
  intro hmem
  have hnot := (Number.denotes_text x).not_isBlank c hmem
  rw [h] at hnot
  cases hnot

/-- **A number is kept by its text.**  The text of any number reads as a number that is equal to it,
or as NaN where it is NaN; of the zeros it is the one without a sign.  The text is classified as
this number, and written again it is the same text.  So a number that one program writes and another
one reads, or that is joined to what is shown as nothing, keeps its value. -/
theorem readsBack (x : Float) : ReadsBack x (Number.canonical x) := by
  have hsame := Number.same_canonical x
  -- a sum is read back if one operand is not a number and the two texts together are that of `x`
  have hjoined : ∀ a b : Value, a.asNumber? = Option.none ∨ b.asNumber? = Option.none →
      a.observed ++ b.observed = Number.text x → a.add b = number (Number.canonical x) := by
    intro a b hnone htext
    rw [add_of_asNumber?_eq_none hnone, htext, ofText_text]
  refine
    { read := Number.read?_text x
      equal := ?_
      nan := ?_
      zero := ?_
      classified := ofText_text x
      again := Number.text_canonical x
      unique := fun z => Number.text_eq_text_iff
      beside := ?_
      joined := hjoined
      passed := ?_ }
  · -- a double that is a number is the one that is read back
    intro hnot
    refine hsame.resolve_right fun hnan => ?_
    rw [hnot] at hnan
    cases hnan.2
  · -- what is not a number stays so
    intro hnan
    rcases Binary.same_iff.1 hsame with heq | ⟨-, hrank⟩
    · rw [heq]
      exact hnan
    · rw [Binary.eq_notANumber_of_isNaN hnan] at hrank
      exact absurd hrank (by decide)
  · -- the zeros become one
    intro hzero
    rcases Binary.eq_or_zeros_of_beq hzero with rfl | ⟨hrank, -⟩
    · exact Number.canonical_of_zero (by decide)
    · exact Number.canonical_of_zero hrank
  · -- with the empty text on either side
    intro e he
    have hnone := asNumber?_of_observed_empty he
    constructor
    · refine hjoined _ _ (Or.inr hnone) ?_
      rw [he, String.append_empty]
      rfl
    · refine hjoined _ _ (Or.inl hnone) ?_
      rw [he, String.empty_append]
      rfl
  · -- written in one session, and read in another
    intro p n line expression s t u hvalue hwrite
    refine ⟨_, written_of_evaluate_write hvalue hwrite, ?_⟩
    intro q m line own name s rest hinput
    rw [evaluate_read (notMem_text_of_isBlank (by decide) x) (notMem_text_of_isBlank (by decide) x)
      hinput, ofText_text]

end Value
end Scriptlet
