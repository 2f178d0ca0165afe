import Scriptlet.Proofs.Grammar.Layout
import Scriptlet.Proofs.Session.Parallel
import Scriptlet.Proofs.Session.Safety

/-!
Running does not look at lines.

Programs whose trees are equal up to lines do the same in every session.  A line only ever gets from
the tree into a fault, and no step of a run looks at a fault.  Together with the reading of texts
(`Program.parse_layout`) this takes lines out of all that a source text comes to: white space, line
breaks and comments between the tokens make no difference but to the lines that faults are reported
on.

The comparison is one of two evaluations side by side.  The trees are equal up to lines, so at each
node the labels are the same and the children are related again; the sessions are equal, log included,
as no line is ever logged.  Related lines are any two lines (`AnyLines`), which is all that is asked
where a fault is made.

The statement is about texts and not about trees.  Its hypothesis can be checked by looking at the
tokens, and it holds of texts that cannot be read as well: then the errors have the same cause.

Main statement: `layout_independent`, for any two texts whose tokens are of the same kinds.
-/

namespace Scriptlet

/-- The halt without its line. -/
def Halt.eraseLine : Halt → Halt
  | .fault e => .fault e.eraseLine
  | .malformed m => .malformed m
  | .outOfFuel => .outOfFuel

/-- Halts that are alike but for their lines. -/
theorem Halt.Alike.eraseLine_eq {L : Nat → Nat → Prop} {e e' : Halt} (h : Halt.Alike L e e') :
    e.eraseLine = e'.eraseLine := by
  cases h <;> rfl

namespace Evaluation

open Node

/-- Any two lines. -/
def AnyLines : Nat → Nat → Prop := fun _ _ => True

/-- Two evaluations in one session that halt alike, but for lines. -/
def upToLines : Terms Halt Halt Session Session where
  excused _ := False
  excused' _ := False
  matching e e' s t := e.eraseLine = e'.eraseLine ∧ s = t

theorem parallel_upToLines : Parallel upToLines AnyLines (fun _ => True) fun _ => Eq :=
  .eq fun h => ⟨h.eraseLine_eq, rfl⟩

theorem resembles_sameTree {t u : Node} (h : SameTree t u) :
    Resembles AnyLines (fun _ => True) SameTree t u := by
  obtain ⟨hlabel, hchildren⟩ := h.parts
  exact ⟨hlabel, fun _ _ => trivial, trivial, hchildren.forall₂⟩

/-- Programs that are equal up to lines have the same functions, up to lines. -/
theorem sameFunctions_sameTree {p q : Program} (h : p.eraseLines = q.eraseLines) :
    SameFunctions SameTree p q := by
  obtain ⟨root, functions⟩ := p
  obtain ⟨root', functions'⟩ := q
  have heq : Program.mk root.eraseLines functions = Program.mk root'.eraseLines functions' := h
  obtain ⟨hroot, rfl⟩ := (Program.mk.injEq ..).mp heq
  have hchildren : List.Forall₂ SameTree root.children root'.children :=
    (SameTree.parts hroot).2.forall₂
  intro name
  unfold Program.function?
  dsimp only
  cases functions.find? name with
  | none => exact .none
  -- the positions are equal, and the trees at a position differ in their lines only
  | some position =>
    show Option.Rel SameTree root.children[position]? root'.children[position]?
    generalize root.children = ts, root'.children = us at hchildren
    induction hchildren generalizing position with
    | nil => exact .none
    | cons hfirst _ ih =>
      cases position with
      | zero => exact .some hfirst
      | succ position => exact ih position

theorem kept_run_upToLines {p q : Program} (hp : p.WellFormed) (h : p.eraseLines = q.eraseLines)
    (fuel : Nat) : Kept upToLines Eq (run p fuel) (run q fuel) := by
  have hfunctions := sameFunctions_sameTree h
  have hbelow := parallel_upToLines.level hp resembles_sameTree hfunctions
    (Or.inl (rfl : fuel = fuel))
  exact (hbelow.run parallel_upToLines hp hfunctions).kept

end Evaluation

namespace Program

open Evaluation

/-- Programs that are equal up to lines come to the same, up to lines, and leave the same session.
-/
theorem runIn_upToLines {p q : Program} (hp : p.WellFormed) (h : p.eraseLines = q.eraseLines)
    (fuel : Nat) (s : Session) :
    (p.runIn fuel s).1.mapError Halt.eraseLine = (q.runIn fuel s).1.mapError Halt.eraseLine ∧
      (p.runIn fuel s).2 = (q.runIn fuel s).2 := by
  have hpaired := kept_run_upToLines hp h fuel s s rfl
  rcases hpaired.cases (fun _ => id) (fun _ => id) with
    ⟨v, t, v', u, hx, hy, rfl, rfl⟩ | ⟨e, t, e', u, hx, hy, hhalt, rfl⟩
  · rw [runIn_of_ok hx, runIn_of_ok hy]
    exact ⟨rfl, rfl⟩
  · rw [runIn_of_error hx, runIn_of_error hy]
    exact ⟨congrArg Except.error hhalt, rfl⟩

/-- Readings that are equal up to lines: two programs or two errors. -/
theorem cases_of_eraseLines {x y : Except Error Program}
    (h : (x.map eraseLines).mapError Error.eraseLine =
      (y.map eraseLines).mapError Error.eraseLine) :
    (∃ p q, x = .ok p ∧ y = .ok q ∧ p.eraseLines = q.eraseLines) ∨
      ∃ e e', x = .error e ∧ y = .error e' ∧ e.eraseLine = e'.eraseLine := by
  cases x with
  | ok p =>
    cases y with
    | ok q => exact Or.inl ⟨p, q, rfl, rfl, Except.ok.inj h⟩
    | error e => cases h
  | error e =>
    cases y with
    | ok q => cases h
    | error e' => exact Or.inr ⟨e, e', rfl, rfl, Except.error.inj h⟩

/-- **Nothing depends on the layout.**  Take any two texts whose tokens are of the same kinds,
whatever white space, line breaks and comments there are.

* They are read as programs with the same tree, up to lines, and the same table of functions, or
  both are rejected for the same cause.
* Where they are programs, runs in any session come to the same value, or to the same fault up to
  its line, and leave the same session.
* The whole way from the text to the end of a run comes to the same, up to lines, with the same
  output and the same input left. -/
theorem layout_independent {a b : String} {ts us : List Token} (ha : tokens a = .ok ts)
    (hb : tokens b = .ok us) (hkinds : ts.map Token.kind = us.map Token.kind) :
    ((parse a).map eraseLines).mapError Error.eraseLine =
        ((parse b).map eraseLines).mapError Error.eraseLine ∧
      (∀ p q, parse a = .ok p → parse b = .ok q → ∀ fuel s,
        (p.runIn fuel s).1.mapError Halt.eraseLine = (q.runIn fuel s).1.mapError Halt.eraseLine ∧
          (p.runIn fuel s).2 = (q.runIn fuel s).2) ∧
      ∀ fuel discipline input output,
        (runSource fuel a discipline input output).outcome.mapError Halt.eraseLine =
            (runSource fuel b discipline input output).outcome.mapError Halt.eraseLine ∧
          (runSource fuel a discipline input output).output =
            (runSource fuel b discipline input output).output ∧
          (runSource fuel a discipline input output).rest =
            (runSource fuel b discipline input output).rest := by
  have hparse := parse_layout ha hb hkinds
  have hruns : ∀ p q, parse a = .ok p → parse b = .ok q → ∀ fuel s,
      (p.runIn fuel s).1.mapError Halt.eraseLine = (q.runIn fuel s).1.mapError Halt.eraseLine ∧
        (p.runIn fuel s).2 = (q.runIn fuel s).2 := by
    intro p q hpa hqb fuel s
    rw [hpa, hqb] at hparse
    have herase : p.eraseLines = q.eraseLines := Except.ok.inj hparse
    exact runIn_upToLines (wellFormed_of_parse hpa) herase fuel s
  refine ⟨hparse, hruns, ?_⟩
  intro fuel discipline input output
  -- both are run, or neither is
  rcases cases_of_eraseLines hparse with ⟨p, q, hpa, hqb, -⟩ | ⟨e, e', hea, heb, herror⟩
  · obtain ⟨houtcome, hsession⟩ := hruns p q hpa hqb fuel (.start discipline input output)
    obtain ⟨houtcomea, houtputa, hresta⟩ := runSource_of_ok hpa fuel discipline input output
    obtain ⟨houtcomeb, houtputb, hrestb⟩ := runSource_of_ok hqb fuel discipline input output
    rw [houtcomea, houtputa, hresta, houtcomeb, houtputb, hrestb]
    exact ⟨houtcome, congrArg Session.output hsession, congrArg Session.input hsession⟩
  · obtain ⟨houtcomea, houtputa, hresta⟩ := runSource_of_error hea fuel discipline input output
    obtain ⟨houtcomeb, houtputb, hrestb⟩ := runSource_of_error heb fuel discipline input output
    rw [houtcomea, houtputa, hresta, houtcomeb, houtputb, hrestb]
    exact ⟨congrArg (Except.error ∘ Halt.fault) herror, rfl, rfl⟩

/-- A program on one line, which returns a variable that it has not defined. -/
def oneLine : String := "fun main() { write(1); return x }"

/-- The same program on three lines, with a comment. -/
def threeLines : String := "fun main # no parameters\n()\n{ write(1) ; return x }"

/-- It holds of the two, whose faults are on different lines. -/
theorem layout_independent_comment :
    ∃ ts us, tokens oneLine = .ok ts ∧ tokens threeLines = .ok us ∧
      ts.map Token.kind = us.map Token.kind ∧
      ((parse oneLine).map eraseLines).mapError Error.eraseLine =
          ((parse threeLines).map eraseLines).mapError Error.eraseLine ∧
        (∀ p q, parse oneLine = .ok p → parse threeLines = .ok q → ∀ fuel s,
          (p.runIn fuel s).1.mapError Halt.eraseLine = (q.runIn fuel s).1.mapError Halt.eraseLine ∧
            (p.runIn fuel s).2 = (q.runIn fuel s).2) ∧
        ∀ fuel discipline input output,
          (runSource fuel oneLine discipline input output).outcome.mapError Halt.eraseLine =
              (runSource fuel threeLines discipline input output).outcome.mapError Halt.eraseLine ∧
            (runSource fuel oneLine discipline input output).output =
              (runSource fuel threeLines discipline input output).output ∧
            (runSource fuel oneLine discipline input output).rest =
              (runSource fuel threeLines discipline input output).rest := by
  have hone : (tokens oneLine).isOk := by decide +kernel
  have hthree : (tokens threeLines).isOk := by decide +kernel
  have hsame : (tokens oneLine).map (List.map Token.kind) =
      (tokens threeLines).map (List.map Token.kind) := by
    decide +kernel
  obtain ⟨ts, ha⟩ := exists_of_isOk hone
  obtain ⟨us, hb⟩ := exists_of_isOk hthree
  rw [ha, hb] at hsame
  have hkinds : ts.map Token.kind = us.map Token.kind := Except.ok.inj hsame
  exact ⟨ts, us, ha, hb, hkinds, layout_independent ha hb hkinds⟩

end Program
end Scriptlet
