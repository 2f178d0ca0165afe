import Scriptlet.Proofs.Session.Admission
import Scriptlet.Proofs.Session.Safety
import Scriptlet.Proofs.Value.Classified

/-!
Texts that a program comes to never read as numbers.

The operators look into texts for numbers, and `Value.ofText` makes numbers of texts that read as
such.  So it matters that a text comes by way of `ofText`, or is a literal, before an operator sees
it; otherwise `+` would join what it had added, had the value come from elsewhere.

Classified values are an admission (`classification`): numbers are, literals are since they start with
a quote, and what `+` makes and what a line is read as have been through `ofText`.  What is known of
admissions holds of them, and on such values an operator that looks at the kind alone is the operator
(`numberByKind`, `sumByKind`).

There are three things in the statement.  Between runs: whatever runs a session has been through, its
values are classified.  During a run: every session before and after a node is, which is said of an
evaluator that looks at each of them and would halt otherwise.  And what follows from it at the
operators, which is what makes the invariant worth having: an operator that were to see the number in
a text would behave differently with other texts, and here there are none.

Main statement: `classifiesTexts_of_parse`, for every program that is read.
-/

namespace Scriptlet

/-- Classified values, whatever the input. -/
def classification : Admission := ⟨Value.isClassified, fun _ => true⟩

theorem classification_value (v : Value) : classification.value v = v.isClassified := rfl

theorem closed_classification : classification.Closed := by
  constructor
  · exact fun x => rfl
  · intro s h
    rw [classification_value]
    exact Value.isClassified_of_startsQuoted h.startsQuoted
  · intro a b _ _
    rw [classification_value]
    exact Value.isClassified_add a b
  · exact fun _ _ => rfl
  · intro bytes text _ _
    rw [classification_value]
    exact Value.isClassified_ofText _

/-- All values of the session are classified. -/
abbrev Session.Classified (s : Session) : Prop := s.Admitted classification

namespace Evaluation

/-! ## Operators that look at kinds -/

/-- The value of an operand, which has to be of the kind of numbers. -/
def numberByKind (eval : Evaluator) (operator : String) (node : Node) : Evaluation Float := do
  match ← valueOf eval node with
  | .number x => pure x
  | .text s => fault node.line (.nonNumericOperand operator (Value.text s).observed)

/-- The value of a `+`: two numbers are added, anything else is joined. -/
def sumByKind (eval : Evaluator) (node : Node) : Evaluation Value := do
  let (left, right) ← operands node
  let a ← valueOf eval left
  let b ← valueOf eval right
  pure (a.addByKind b)

variable {eval : Evaluator} {s : Session}

/-- The number in a classified value is seen by its kind. -/
theorem numberOf_eq_numberByKind {operator : String} {t : Node}
    (h : Admitting classification (eval t) (Completion.Admitted classification))
    (hs : s.Classified) : numberOf eval operator t s = numberByKind eval operator t s := by
  apply bind_congr_of_leads (h.valueOf s hs)
  intro v u hv
  rw [Value.asNumber?_of_classified hv.1]
  cases v <;> rfl

/-- The operands are both numbers, or else they are joined. -/
theorem operation_add_eq_sumByKind {t : Node}
    (h : ∀ child ∈ t.children,
      Admitting classification (eval child) (Completion.Admitted classification))
    (hs : s.Classified) : operation eval .add t s = sumByKind eval t s := by
  apply bind_congr_of_leads ((admitting_operands h) s hs)
  rintro ⟨left, right⟩ u ⟨⟨hleft, hright⟩, hu⟩
  apply bind_congr_of_leads (hleft.valueOf u hu)
  intro a v ha
  apply bind_congr_of_leads (hright.valueOf v ha.2)
  intro b w hb
  rw [Value.add_of_classified ha.1 hb.1]

end Evaluation

/-! ## Programs -/

namespace Program

open Evaluation

/-- The sessions that runs of a program start from: a new one, and one that a run has left, whatever
it ended with. -/
inductive Reached (p : Program) : Session → Prop where
  | start (discipline : Discipline) (input : List UInt8) (output : Output) :
      Reached p (.start discipline input output)
  | run {s : Session} (h : Reached p s) (fuel : Nat) : Reached p (p.runIn fuel s).2

/-- How the evaluation of a node treats a session of classified values: it leaves one, with a
classified completion if it ends, and the operators go by the kinds of values alone. -/
structure GoesByKind (p : Program) (fuel : Nat) (node : Node) (s : Session) : Prop where
  ended : ∀ c t, evaluate p fuel node s = .ok c t → c.Admitted classification ∧ t.Classified
  halted : ∀ e t, evaluate p fuel node s = .error e t → t.Classified
  number : ∀ operator, numberOf (evaluate p fuel) operator node s =
    numberByKind (evaluate p fuel) operator node s
  sum : operation (evaluate p fuel) .add node s = sumByKind (evaluate p fuel) node s

/-- No text that a program comes to reads as a number.

* A session that runs have left, however many and with whatever outcome, has classified values only,
  in its records and in what has been reported of arguments and returned values.
* A run in such a session finds only classified values before and after every node (the run that
  looks is the run itself, and would halt on a malformed node, which no run does), and it yields
  one.
* At every node of the program, with whatever classified values, `+` adds exactly if both operands
  are numbers, and every other operator faults exactly if an operand is a text. -/
structure ClassifiesTexts (p : Program) : Prop where
  session : ∀ s, p.Reached s → s.Classified
  during : ∀ s, p.Reached s → ∀ fuel, runAdmitted classification p fuel s = run p fuel s
  noMalformation : ∀ s fuel m, (p.runIn fuel s).1 ≠ .error (.malformed m)
  outcome : ∀ s, p.Reached s → ∀ fuel v, (p.runIn fuel s).1 = .ok v → v.isClassified = true
  node : ∀ path node, p.root.descend? path = some node → ∀ fuel s, s.Classified →
    p.GoesByKind fuel node s
  classified : ∀ v : Value, v.isClassified = true ↔ (v.asNumber?.isSome = true ↔ ∃ x, v = .number x)

variable {source : String} {p : Program}

theorem classified_runIn (hp : p.WellFormed) (hroot : p.root.HasLiterals) {s : Session}
    (hs : s.Classified) (fuel : Nat) :
    (p.runIn fuel s).2.Classified ∧ ∀ v, (p.runIn fuel s).1 = .ok v → v.isClassified = true :=
  admitted_runIn closed_classification hp hroot hs fuel

/-- Runs keep the values of a session classified, and a new session has none. -/
theorem classified_of_reached (hp : p.WellFormed) (hroot : p.root.HasLiterals) {s : Session}
    (h : p.Reached s) : s.Classified := by
  induction h with
  | start discipline input output => exact .start rfl discipline output
  | run h fuel ih => exact (classified_runIn hp hroot ih fuel).1

/-- A node goes by kind, whether it is an expression or not: its own evaluation and those of its
children come to classified values only. -/
theorem goesByKind (hp : p.WellFormed) (hroot : p.root.HasLiterals) {node : Node} {path : List Nat}
    (hnode : p.root.descend? path = some node) (fuel : Nat) {s : Session} (hs : s.Classified) :
    p.GoesByKind fuel node s := by
  have hliterals : node.HasLiterals := hroot.descend hnode
  have hshape := hp.descend hnode
  -- the root has functions below it, which are no statements
  have hchildren : ∀ child ∈ node.children, child.IsInner := by
    rcases hshape with rfl | hinner
    · exact fun function hmem => .function (hp.functions function hmem)
    · exact hinner.children
  have hadmitting :=
    admitting_evaluate closed_classification hp hroot fuel hshape hliterals
  have hleads := hadmitting s hs
  constructor
  · exact fun c t hc => hleads.of_ok hc
  · exact fun e t he => hleads.of_error he
  · exact fun operator => numberOf_eq_numberByKind hadmitting hs
  · refine operation_add_eq_sumByKind (fun child hmem => ?_) hs
    exact admitting_evaluate closed_classification hp hroot fuel (Or.inr (hchildren child hmem))
      (hliterals.children child hmem)

/-- **Texts never read as numbers**, in no program that is read. -/
theorem classifiesTexts_of_parse (h : parse source = .ok p) : p.ClassifiesTexts := by
  have hp := wellFormed_of_parse h
  have hroot : p.root.HasLiterals := isLiteral_of_parse h
  have hclassified : ∀ {s}, p.Reached s → s.Classified := classified_of_reached hp hroot
  constructor
  · exact fun s hs => hclassified hs
  · exact fun s hs fuel => (runAdmitted_eq closed_classification hp hroot fuel (hclassified hs)).1
  · exact fun s fuel m => hp.runIn_ne_malformed fuel s m
  · exact fun s hs fuel => (classified_runIn hp hroot (hclassified hs) fuel).2
  · exact fun path node hnode fuel s hs => goesByKind hp hroot hnode fuel hs
  · exact fun v => Value.isClassified_iff

/-- It holds of a program that passes on what it reads, and adds it. -/
theorem classifiesTexts_of_parse_doubling :
    ∃ p, parse "fun f(a) { return a + a } fun main() { read(x); write(f(x)) }" = .ok p ∧
      p.ClassifiesTexts := by
  have hok : (parse "fun f(a) { return a + a } fun main() { read(x); write(f(x)) }").isOk := by
    decide +kernel
  obtain ⟨p, hp⟩ := exists_of_isOk hok
  exact ⟨p, hp, classifiesTexts_of_parse hp⟩

end Program
end Scriptlet
