import Scriptlet.Proofs.Tree.Normal
import Scriptlet.Session.Evaluate

/-!
Reasoning about evaluations.

`Leads x s ok halt` says what becomes of the session `s` when the evaluation `x` is run in it: `ok` of
the result and the session after it, or `halt` of the reason and the session in which it halted.
There is one lemma for each way of putting evaluations together, so a proof about an evaluation goes
along its definition.

On a well-formed tree a level of evaluation never has to look for the parts of a node.  What it does
there is said by one equation for each form (`step_operator`, …, `invoke_of_function?`), whatever
evaluates the levels below; proofs about programs use these and leave `step` closed.  There are two
other ways to the same end.  A `Judgement` has the cases of the nodes behind it once and for all, for
statements about one evaluator that go by the forms of a well-formed tree.  `Parallel` has them for
two evaluators on two trees.  The equations here are for what is left: comparisons with an evaluator
that is written in another way, and measures of how much fuel is used.

A body of a well-formed function ends by returning (`Returns`).  It is the last statement that sees to
it, as the reader has put one there, and it is stated here because so much depends on it: that a call
yields a value, that it takes its record off the stack, that its bracket is closed.

The last part is about runs.  `runIn` gives the outcome of a run and the session after it as a pair,
where the evaluation gives a result with the session inside; the lemmas go from one to the other.
-/

namespace Scriptlet
namespace Evaluation

variable {α β : Type}

/-! ## What an evaluation leads to

A weakest precondition, with one postcondition for results and one for halts. -/

/-- Run in the session `s`, the evaluation `x` ends with `ok` or halts with `halt`. -/
def Leads (x : Evaluation α) (s : Session) (ok : α → Session → Prop)
    (halt : Halt → Session → Prop) : Prop :=
  match x s with
  | .ok a t => ok a t
  | .error h t => halt h t

section Rules

variable {s : Session} {ok : α → Session → Prop} {halt : Halt → Session → Prop}

/-- A result in the session as it is. -/
theorem Leads.pure {a : α} (h : ok a s) : Leads (Pure.pure a) s ok halt := h

/-- A halt in the session as it is. -/
theorem Leads.throw {e : Halt} (h : halt e s) : Leads (throw e) s ok halt := h

/-- What the first evaluation leads to is where the second starts; a halt of the first is one of
both. -/
theorem Leads.bind {x : Evaluation α} {f : α → Evaluation β} {ok' : β → Session → Prop}
    (hx : Leads x s ok halt) (hf : ∀ a t, ok a t → Leads (f a) t ok' halt) :
    Leads (x >>= f) s ok' halt := by
  unfold Leads at hx ⊢
  simp only [Bind.bind, EStateM.bind]
  cases hr : x s with
  | ok a t =>
    rw [hr] at hx
    exact hf a t hx
  | error e t =>
    rw [hr] at hx
    exact hx

/-- Weaker claims on the result and on the halt. -/
theorem Leads.mono {x : Evaluation α} {ok' : α → Session → Prop} {halt' : Halt → Session → Prop}
    (hx : Leads x s ok halt) (hok : ∀ a t, ok a t → ok' a t)
    (hhalt : ∀ e t, halt e t → halt' e t) : Leads x s ok' halt' := by
  unfold Leads at hx ⊢
  cases hr : x s with
  | ok a t =>
    rw [hr] at hx
    exact hok a t hx
  | error e t =>
    rw [hr] at hx
    exact hhalt e t hx

/-- Looking at the session leaves it as it is. -/
theorem Leads.get_bind {f : Session → Evaluation α} (h : Leads (f s) s ok halt) :
    Leads (get >>= f) s ok halt := h

/-- A change of the session always succeeds. -/
theorem Leads.modify {g : Session → Session} {ok : PUnit → Session → Prop} (h : ok ⟨⟩ (g s)) :
    Leads (modify g) s ok halt := h

theorem Leads.set {t : Session} {ok : PUnit → Session → Prop} (h : ok ⟨⟩ t) :
    Leads (set t) s ok halt := h

/-- What is known of a run that succeeds. -/
theorem Leads.of_ok {x : Evaluation α} {a : α} {t : Session} (h : Leads x s ok halt)
    (hx : x s = .ok a t) : ok a t := by
  unfold Leads at h
  rw [hx] at h
  exact h

theorem Leads.of_error {x : Evaluation α} {e : Halt} {t : Session} (h : Leads x s ok halt)
    (hx : x s = .error e t) : halt e t := by
  unfold Leads at h
  rw [hx] at h
  exact h

/-- The session that an evaluation leaves, whatever it ends with. -/
def sessionAfter (x : Evaluation α) (s : Session) : Session :=
  match x s with
  | .ok _ t => t
  | .error _ t => t

theorem sessionAfter_of_ok {x : Evaluation α} {a : α} {t : Session} (h : x s = .ok a t) :
    x.sessionAfter s = t := by
  unfold sessionAfter
  rw [h]

/-- What holds of the session in either case. -/
theorem Leads.sessionAfter {x : Evaluation α} {after : Session → Prop}
    (h : Leads x s (fun _ t => after t) fun _ t => after t) : after (x.sessionAfter s) := by
  unfold Evaluation.sessionAfter
  cases hx : x s with
  | ok a t => exact h.of_ok hx
  | error e t => exact h.of_error hx

end Rules

/-- Continuations that do the same wherever the first part leads to. -/
theorem bind_congr_of_leads {x : Evaluation α} {f g : α → Evaluation β} {s : Session}
    {ok : α → Session → Prop} {halt : Halt → Session → Prop} (hx : Leads x s ok halt)
    (h : ∀ a t, ok a t → f a t = g a t) : (x >>= f) s = (x >>= g) s := by
  simp only [Bind.bind, EStateM.bind]
  cases hr : x s with
  | ok a t => exact h a t (hx.of_ok hr)
  | error e t => rfl

/-! What goes on after the session has been looked at or changed: -/

/-- A look at the session, run in one. -/
theorem get_bind_apply {f : Session → Evaluation α} {s : Session} : (get >>= f) s = f s s := rfl

theorem set_bind_apply {f : PUnit → Evaluation α} {s t : Session} :
    (set t >>= f) s = f ⟨⟩ t := rfl

/-- Changing the session with a result, run in one. -/
theorem modifyGet_bind_apply {g : Session → α × Session} {f : α → Evaluation β} {s : Session} :
    (modifyGet g >>= f) s = f (g s).1 (g s).2 := rfl

/-- What goes on after a part that ends. -/
theorem bind_of_ok {x : Evaluation α} {f : α → Evaluation β} {a : α} {s t : Session}
    (h : x s = .ok a t) : (x >>= f) s = f a t := by
  simp only [Bind.bind, EStateM.bind, h]

/-- After a part that halts nothing goes on. -/
theorem bind_of_error {x : Evaluation α} {f : α → Evaluation β} {e : Halt} {s t : Session}
    (h : x s = .error e t) : (x >>= f) s = .error e t := by
  simp only [Bind.bind, EStateM.bind, h]

/-! ## Expressions and conditions, level by level -/

section Levels

variable {p : Program} {n line : Nat} {eval : Evaluator}

/-- One more unit of fuel is one more level. -/
theorem evaluate_succ {t : Node} : evaluate p (n + 1) t = step p n (evaluate p n) t := rfl

theorem step_operator {op : Operator} {left right : Node} :
    step p n eval (.binary (.operator op) left right line) = (do
      let v ← operation eval op (.binary (.operator op) left right line)
      pure (.value v)) := rfl

/-- `+` takes any two values, the other operators take two numbers. -/
theorem operation_binary {op : Operator} {left right : Node} :
    operation eval op (.binary (.operator op) left right line) =
      if op = .add then (do
        let a ← valueOf eval left
        let b ← valueOf eval right
        pure (a.add b))
      else (do
        let x ← numberOf eval op.symbol.toString left
        let y ← numberOf eval op.symbol.toString right
        pure (.number (arithmetic op x y))) := rfl

theorem step_call {name : String} {arguments : List Node} :
    step p n eval ⟨.call name, arguments, line⟩ = (do
      let values ← valuesOf eval arguments
      let v ← invoke p eval name values line
      pure (.value v)) := rfl

/-- An expression as a condition. -/
theorem holds_of_isExpression {t : Node} (h : t.IsExpression) :
    holds eval t = (do
      let x ← numberOf eval "condition" t
      pure (x != 0)) := by
  cases h <;> rfl

theorem holds_comparison {op : Comparator} {left right : Node} :
    holds eval (.binary (.comparison op) left right line) = (do
      let x ← numberOf eval op.symbol left
      let y ← numberOf eval op.symbol right
      pure (comparisonHolds op x y)) := rfl

/-! ## Statements, level by level -/

/-- Output is of the observed text, without the quotes of a literal. -/
theorem step_write {value : Node} :
    step p n eval ⟨.write, [value], line⟩ = (do
      let v ← valueOf eval value
      writeLine line v.observed
      pure .normal) := rfl

/-- Input is a line, classified as a value. -/
theorem step_read {name : String} {own : Nat} :
    step p n eval ⟨.read, [.leaf (.identifier name) own], line⟩ = (do
      let text ← nextLine line name
      assign name (.ofText text)
      pure .normal) := rfl

theorem step_ifThenElse {test consequence alternative : Node} :
    step p n eval ⟨.ifThen, [test, consequence, alternative], line⟩ = (do
      if ← holds eval test then eval consequence
      else eval alternative) := rfl

end Levels

/-! ## Calls -/

/-- What a name refers to is one of the declarations. -/
theorem mem_of_function? {p : Program} {name : String} {function : Node}
    (h : p.function? name = some function) : function ∈ p.root.children := by
  unfold Program.function? at h
  obtain ⟨position, -, hposition⟩ := Option.bind_eq_some_iff.1 h
  exact List.mem_of_getElem? hposition

/-- A call of a function that is declared. -/
theorem invoke_of_function? {p : Program} {eval : Evaluator} {name : String} {label : Label}
    {parameters : List Node} {body : Node} {arguments : List Value} {own line : Nat}
    (h : p.function? name = some ⟨label, parameters ++ [body], own⟩) :
    invoke p eval name arguments line =
      if parameters.length ≠ arguments.length then
        fault line (.parameterCount name parameters.length arguments.length)
      else (do
        report (.calling name arguments)
        enter name
        assignAll parameters arguments
        match ← eval body with
        | .returned v => pure v
        | _ => do
          resume
          pure .none) := by
  unfold invoke
  rw [h]
  have hbody : (parameters ++ [body]).getLast? = some body := List.getLast?_concat
  have hparameters : (parameters ++ [body]).dropLast = parameters := List.dropLast_concat
  dsimp only
  rewrite [hbody, hparameters]
  rfl

/-- Parameters are names. -/
theorem assignAll_cons {name : String} {line : Nat} {parameters : List Node} {argument : Value}
    {arguments : List Value} :
    assignAll (.leaf (.identifier name) line :: parameters) (argument :: arguments) = (do
      assign name argument
      assignAll parameters arguments) := rfl

/-! ## Bodies

That bodies return, by the statement that the reader has put at their end. -/

/-- Nothing at all is claimed. -/
theorem leads_true {x : Evaluation α} {s : Session} :
    Leads x s (fun _ _ => True) fun _ _ => True := by
  unfold Leads
  cases x s <;> trivial

/-- Whenever the evaluation ends, it has returned. -/
def Returns (x : Evaluation Completion) : Prop :=
  ∀ s, Leads x s (fun c _ => ∃ v, c = .returned v) fun _ _ => True

section Returns

open Node

/-- What is done before makes no difference. -/
theorem Returns.after {x : Evaluation α} {f : α → Evaluation Completion}
    (h : ∀ a, Returns (f a)) : Returns (x >>= f) :=
  fun _ => leads_true.bind fun a t _ => h a t

theorem returns_pure {v : Value} : Returns (pure (.returned v)) := fun _ => Leads.pure ⟨v, rfl⟩

/-- A list returns with the first of its statements that returns, or before it. -/
theorem returns_sequence {eval : Evaluator} {nodes : List Node} {t : Node} (ht : t ∈ nodes)
    (h : Returns (eval t)) : Returns (sequence eval nodes) := by
  induction nodes with
  | nil => cases ht
  | cons u us ih =>
    rcases List.mem_cons.1 ht with rfl | hrest
    · intro s
      refine Leads.bind (h s) fun c t hc => ?_
      obtain ⟨v, rfl⟩ := hc
      exact Leads.pure ⟨v, rfl⟩
    · refine Returns.after fun c => ?_
      split
      · exact returns_pure
      · exact ih hrest

/-- **Statements that return by their form do so**, with any fuel. -/
theorem returns_evaluate {p : Program} {n : Nat} {t : Node} (h : t.returns = true) :
    Returns (evaluate p n t) := by
  induction n generalizing t with
  | zero => exact fun s => Leads.throw trivial
  | succ n ih =>
    rw [evaluate_succ]
    unfold Node.returns at h
    split at h
    · refine Returns.after fun expression => Returns.after fun value => ?_
      exact Returns.after fun _ => Returns.after fun _ => returns_pure
    · exact ih h
    · obtain ⟨u, hu, hreturns⟩ := anyReturns_iff.1 h
      exact returns_sequence hu (ih hreturns)
    · rw [Bool.and_eq_true] at h
      rw [step_ifThenElse]
      refine Returns.after fun truth => ?_
      split
      · exact ih h.1
      · exact ih h.2
    · cases h

end Returns

end Evaluation

/-! ## Runs -/

namespace Program

open Evaluation (run)

variable {p : Program} {fuel : Nat} {s t : Session}

theorem runIn_of_ok {v : Value} (h : run p fuel s = .ok v t) : p.runIn fuel s = (.ok v, t) := by
  unfold runIn
  rw [h]

theorem runIn_of_error {e : Halt} (h : run p fuel s = .error e t) :
    p.runIn fuel s = (.error e, t) := by
  unfold runIn
  rw [h]

/-! ## Source texts -/

/-- A reading that has succeeded has read something. -/
theorem exists_of_isOk {α : Type} {parsed : Except Error α} (h : parsed.isOk) :
    ∃ a, parsed = .ok a := by
  cases parsed with
  | ok a => exact ⟨a, rfl⟩
  | error e => cases h

/-- A reading that has succeeded, with a program that passes a check. -/
theorem exists_of_any {parsed : Except Error Program} {check : Program → Bool}
    (h : parsed.toOption.any check) : ∃ p, parsed = .ok p ∧ check p = true := by
  cases parsed with
  | ok p => exact ⟨p, rfl, h⟩
  | error e => cases h

/-- What a source text comes to is that of the program it is read as. -/
theorem runSource_of_ok {source : String} {p : Program} (h : parse source = .ok p) (fuel : Nat)
    (discipline : Discipline) (input : List UInt8) (output : Output) :
    (runSource fuel source discipline input output).outcome =
        (p.runIn fuel (.start discipline input output)).1 ∧
      (runSource fuel source discipline input output).output =
        (p.runIn fuel (.start discipline input output)).2.output ∧
      (runSource fuel source discipline input output).rest =
        (p.runIn fuel (.start discipline input output)).2.input := by
  have hread : (readSource source).1 = .ok p := h
  unfold runSource
  cases hr : readSource source with
  | mk parsed log =>
    rw [hr] at hread
    have hparsed : parsed = .ok p := hread
    subst hparsed
    exact ⟨rfl, rfl, rfl⟩

/-- A source text that is no program writes nothing and reads nothing. -/
theorem runSource_of_error {source : String} {e : Error} (h : parse source = .error e) (fuel : Nat)
    (discipline : Discipline) (input : List UInt8) (output : Output) :
    (runSource fuel source discipline input output).outcome = .error (.fault e) ∧
      (runSource fuel source discipline input output).output = output ∧
      (runSource fuel source discipline input output).rest = input := by
  have hread : (readSource source).1 = .error e := h
  unfold runSource
  cases hr : readSource source with
  | mk parsed log =>
    rw [hr] at hread
    have hparsed : parsed = .error e := hread
    subst hparsed
    exact ⟨rfl, rfl, rfl⟩

end Program
end Scriptlet
