import Scriptlet.Proofs.Session.Invariant
import Scriptlet.Proofs.Session.Isolation

/-!
Programs run at the top of the stack.

What is known of a node (`isolated_evaluate`, `framed_evaluate`) is known of sessions whose current
record is the top of the stack.  Here it is shown that a run evaluates nodes in no other sessions.
`evaluateAtTop` is `evaluate` with a guard: wherever it comes to a node while the current record is
not the top of the stack, it halts, and in a way in which no run does.  The guarded run is the run
itself (`runAtTop_eq`), so the guard never fails, however deep the calls and however the run ends.

The invariant behind that is about the stack alone (`OnTop`).  A run finds a stack, which may have
records on it of runs that were broken off, and a current record that need not be its top.  From then
on it counts the functions that it enters itself.  As long as there is one, the record of the last is
the top of the stack and the current one: entering pushes a record and makes it current, and a
`return` makes the new top current, which is that of the caller.  Only when the last function has
returned does the run go back to what it has found.

Main statement: `stack_isolation`, for every node of every program that is read, with what isolation
comes to for expressions, for statements, and where the stack is empty (`IsolatesStack`).
-/

namespace Scriptlet

/-- Is the current record the top of the stack? -/
def Session.atTop (s : Session) : Bool :=
  match s.memory.holding with
  | .shared _ => false
  | .stack active => active.back? = some s.current

namespace Evaluation

open Node Session

/-! ## Evaluation with a guard -/

/-- Evaluates a node of a program, and each node below it, if the current record is the top of the
stack. -/
def evaluateAtTop (p : Program) : Nat → Evaluator
  | 0, _ => throw .outOfFuel
  | n + 1, node => do
    let s ← get
    if s.atTop then step p n (evaluateAtTop p n) node
    else malformed (.notAnExpression node.label)

/-- Calls the entry point of a program, as `run` does. -/
def runAtTop (p : Program) (fuel : Nat) : Evaluation Value :=
  match p.function? entryPoint with
  | none => throw (.fault ⟨.missingMain, none⟩)
  | some function => do
    let value ← invoke p (evaluateAtTop p fuel) entryPoint [] function.line
    flush function.line
    pure value

/-! ## The invariant

As long as a function is active that the run has entered, the record of the last one is the top. -/

/-- Of the functions that are active, `d` have been entered in this run; there may be records of
others below theirs.  If there is one, the record of the last is the current one. -/
def OnTop (d : Nat) (s : Session) : Prop :=
  ∃ active, s.Stacked active ∧ d ≤ active.size ∧ (0 < d → active.back? = some s.current)

variable {d n : Nat} {s t : Session} {active : Array Handle} {p : Program}

/-- What leaves the memory and the current record alone. -/
theorem OnTop.of_eq (h : OnTop d s) (hmemory : t.memory = s.memory)
    (hcurrent : t.current = s.current) : OnTop d t := by
  obtain ⟨active, hs, hdepth, htop⟩ := h
  refine ⟨active, (hs.undisturbed hmemory hcurrent).stacked, hdepth, ?_⟩
  rw [hcurrent]
  exact htop

/-- The record of the function that is entered is pushed, and made the current one. -/
theorem OnTop.entered (h : OnTop d s) (name : String) : OnTop (d + 1) (s.handOut (·.enter name)) := by
  obtain ⟨active, hs, hdepth, -⟩ := h
  have henter : Leads (enter name) s (fun _ t => t.Stacked (active.push s.memory.records.size) ∧
      Keeps none s t ∧ t.current = s.memory.records.size) fun _ _ => True := leads_enter hs
  obtain ⟨hstacked, -, hcurrent⟩ := henter
  refine ⟨_, hstacked, ?_, fun _ => ?_⟩
  · rw [Array.size_push]
    exact Nat.succ_le_succ hdepth
  · rw [Array.back?_push]
    exact congrArg some hcurrent.symm

/-- The record of the function that returns is popped.  If the run has entered another that is still
active, its record is the top now, and the one that is handed out. -/
theorem OnTop.resumed (h : OnTop (d + 1) s) : OnTop d (s.handOut Memory.restore) := by
  obtain ⟨active, hs, hdepth, -⟩ := h
  have hresume : Leads resume s (fun _ t => t.Stacked active.pop ∧ Keeps none s t ∧
      Resumed active.pop s t) fun _ _ => True := leads_resume hs
  obtain ⟨hstacked, -, hresumed⟩ := hresume
  have hpop : d ≤ active.pop.size := by
    rw [Array.size_pop]
    omega
  refine ⟨_, hstacked, hpop, fun hd => ?_⟩
  have hsome : active.pop.back?.isSome := by
    rw [Array.back?_isSome]
    exact Array.ne_empty_of_size_pos (Nat.lt_of_lt_of_le hd hpop)
  obtain ⟨top, htop⟩ := Option.isSome_iff_exists.1 hsome
  unfold Resumed at hresumed
  rw [htop] at hresumed ⊢
  exact congrArg some hresumed.symm

/-- **Every operation keeps it.**  Nothing has to be known of values for that. -/
theorem invariant_onTop : Invariant (fun _ => True) OnTop where
  values := .all
  line _ _ := trivial
  advanced h := h.of_eq rfl rfl
  written _ h := h.of_eq rfl rfl
  logged _ h := h.of_eq rfl rfl
  stored _ _ := trivial
  assigned := by
    rintro d s v name - ⟨active, hs, hdepth, htop⟩
    exact ⟨active, hs.assigned name v, hdepth, htop⟩
  entered name h := h.entered name
  resumed h := h.resumed

/-- Where it holds, the guard of `evaluateAtTop` lets a node through. -/
theorem guards_evaluateAtTop : Guards p (fun _ => True) OnTop (evaluateAtTop p) where
  zero _ := rfl
  succ := by
    rintro n node d s ⟨active, hs, hdepth, htop⟩ -
    have hguard : s.atTop = true := by
      unfold atTop
      rw [hs.holding]
      exact decide_eq_true (htop (Nat.succ_pos d))
    show (if s.atTop then step p n (evaluateAtTop p n) node else _) s = _
    rw [if_pos hguard]

/-! ## Runs -/

/-- **A run evaluates nodes at the top of the stack only.**  It may start anywhere: the call of the
entry point enters a function before there is a node to be evaluated. -/
theorem runAtTop_eq (hp : p.WellFormed) (hs : s.Stacked active) (fuel : Nat) :
    runAtTop p fuel s = run p fuel s := by
  have hliterals : p.root.LiteralsIn fun _ => True := .of_forall (fun _ _ _ => trivial) _
  have hstart : OnTop 0 s := ⟨active, hs, Nat.zero_le _, fun h => absurd h (Nat.lt_irrefl 0)⟩
  exact (guards_evaluateAtTop.start invariant_onTop hp hliterals fuel hstart).1

/-- A run that succeeds leaves the stack as it was, one that halts has at most let it grow. -/
theorem stacked_run (hp : p.WellFormed) (hs : s.Stacked active) (fuel : Nat) :
    Leads (run p fuel) s (fun _ t => t.Stacked active)
      fun _ t => ∃ more, t.Stacked (active ++ more) := by
  apply Leads.mono (isolated_run hp fuel s active hs)
  · exact fun _ t ht => ht.stacked
  · exact fun _ t ht => ht.stacked

end Evaluation

/-! ## Programs -/

namespace Session

/-- A session in which nothing has been done yet has an empty stack. -/
theorem stacked_start (input : List UInt8) (output : Output) :
    (start .stack input output).Stacked #[] := by
  constructor
  · rfl
  · intro record hrecord
    cases hrecord
    contradiction
  · exact Nat.zero_lt_one

end Session

namespace Program

open Evaluation Session

/-- What an evaluation that must not disturb its caller does: after a success the stack, its records
and the current record are as they were, after a halt the stack has at most grown. -/
def Undisturbing {α : Type} (x : Evaluation α) (active : Array Handle) (s : Session) : Prop :=
  (∀ a t, x s = .ok a t → t.Stacked active ∧ t.current = s.current ∧ Keeps none s t) ∧
    ∀ e t, x s = .error e t → (∃ more, t.Stacked (active ++ more)) ∧ Keeps none s t

theorem undisturbing_of_isolated {α : Type} {x : Evaluation α} {called : Prop} {s : Session}
    {active : Array Handle} (hx : Isolated x called) (hs : s.Stacked active)
    (htop : active.back? = some s.current) : Undisturbing x active s := by
  constructor
  · intro a t ht
    have hafter := (hx s active hs).of_ok ht
    exact ⟨hafter.stacked, (hafter.settled htop).current, hafter.keeps⟩
  · intro e t ht
    have hafter := (hx s active hs).of_error ht
    exact ⟨hafter.stacked, hafter.keeps⟩

/-- How the evaluation of a node treats the stack `active` of the session.

* Where the current record is the top of the stack, an expression or a condition leaves the stack
  with all its variables, and the current record, as they were, and where it halts the old stack is
  below the new one with all its variables.
* Where the current record is the top of the stack, a statement that ends normally leaves the stack
  as it was, and one that returns has popped one record and made the next one current, or a new one
  that is empty; either changes variables of the top record only.
* Where the stack is empty, an expression or a condition that succeeds leaves it empty, with all
  variables as they were, and with the same current record if there is no call in it, or a new one
  that is empty if there is. -/
structure IsolatesStack (p : Program) (fuel : Nat) (node : Node) (active : Array Handle)
    (s : Session) : Prop where
  expression : node.label.phrase = .expression → active.back? = some s.current →
    Undisturbing (evaluate p fuel node) active s ∧
      Undisturbing (holds (evaluate p fuel) node) active s
  statement : node.label.phrase = .statement → active.back? = some s.current →
    ∀ c t, evaluate p fuel node s = .ok c t →
      (c = .normal → t.Stacked active ∧ t.current = s.current ∧ Keeps (some s.current) s t) ∧
      ∀ v, c = .returned v →
        t.Stacked active.pop ∧ Resumed active.pop s t ∧ Keeps (some s.current) s t
  empty : node.label.phrase = .expression → active = #[] →
    ∀ c t, evaluate p fuel node s = .ok c t → t.Stacked #[] ∧ Keeps none s t ∧
      (¬ node.Calls → t.current = s.current) ∧ (node.Calls → Resumed #[] s t)

/-- **Stack isolation.**  In every program that is read:

* in every session with a stack, so however many runs there have been, and however they ended, a run
  evaluates each node while the current record is the top of the stack, and leaves a session with a
  stack;
* every node isolates the stack. -/
theorem stack_isolation {source : String} {p : Program} (h : parse source = .ok p) :
    (∀ fuel s active, s.Stacked active →
      runAtTop p fuel s = run p fuel s ∧ ∃ more, (p.runIn fuel s).2.Stacked (active ++ more)) ∧
    ∀ path node, p.root.descend? path = some node →
      ∀ fuel s active, s.Stacked active → IsolatesStack p fuel node active s := by
  have hp := wellFormed_of_parse h
  constructor
  · -- whole runs
    intro fuel s active hs
    refine ⟨runAtTop_eq hp hs fuel, ?_⟩
    have hrun := stacked_run hp hs fuel
    unfold runIn
    split
    · next v t ht => exact ⟨#[], by rw [Array.append_empty]; exact hrun.of_ok ht⟩
    · next e t ht => exact hrun.of_error ht
  · -- the nodes: expressions and conditions, then statements, then what is outside all calls
    intro path node hnode fuel s active hs
    constructor
    · intro hphrase htop
      have hcondition := hp.isCondition hnode hphrase
      constructor
      · exact undisturbing_of_isolated (isolated_evaluate hp hcondition) hs htop
      · exact undisturbing_of_isolated (isolated_holds hp hcondition) hs htop
    · intro hphrase htop c t ht
      have hframed : Framed (evaluate p fuel node) :=
        framed_evaluate hp (hp.isStatement hnode hphrase)
      have hafter := (hframed s active hs htop).of_ok ht
      cases hafter with
      | normal hafter =>
        refine ⟨fun _ => ⟨hafter.stacked, hafter.current, hafter.keeps⟩, fun v hv => ?_⟩
        cases hv
      | returned hafter =>
        refine ⟨fun hc => ?_, fun _ _ => ⟨hafter.stacked, hafter.resumed, hafter.keeps⟩⟩
        cases hc
    · -- with no record on the stack, what is resumed is a new record
      intro hphrase hempty c t ht
      subst hempty
      have hcondition := hp.isCondition hnode hphrase
      have hafter := (isolated_evaluate hp hcondition s #[] hs).of_ok ht
      exact ⟨hafter.stacked, hafter.keeps, hafter.current, hafter.resumed⟩

/-- A function that calls itself, and a call of it. -/
def countingDown : String :=
  "fun f(n) { if (n ? 0) { return 0 } return f(n - 1) + 1 } fun main() { x = 2; return f(x) }"

/-- A session in which a function has been entered that has a variable `x`. -/
def enteredSession : Session :=
  ⟨⟨#[Table.empty.insert "x" (.number 2)], .stack #[0]⟩, 0, [], .unlimited, .empty⟩

/-- It holds of the call `f(x)`, in a run and in a function that has been entered.  The call goes
three functions deep and comes back with 2, and then the stack is that of before, and so is `x`. -/
theorem stack_isolation_recursion :
    ∃ p node t, parse countingDown = .ok p ∧
      p.root.descend? [1, 0, 0, 1, 0] = some node ∧ node.label.phrase = .expression ∧
      enteredSession.Stacked #[0] ∧ #[0].back? = some enteredSession.current ∧
      (∀ fuel, runAtTop p fuel enteredSession = run p fuel enteredSession) ∧
      (∀ fuel, Undisturbing (evaluate p fuel node) #[0] enteredSession) ∧
      evaluate p 20 node enteredSession = .ok (.value (.number 2)) t ∧
      t.memory.records.size = 4 ∧ t.Stacked #[0] ∧ t.current = 0 ∧
      t.memory.find? 0 "x" = some (.number 2) := by
  have hcall : (parse countingDown).toOption.any fun p =>
      (p.root.descend? [1, 0, 0, 1, 0]).any fun node =>
        decide (node.label.phrase = .expression) &&
          match evaluate p 20 node enteredSession with
          | .ok c t => decide (c = .value (.number 2) ∧ t.memory.records.size = 4)
          | .error _ _ => false := by
    decide +kernel
  obtain ⟨p, hp, hcheck⟩ := exists_of_any hcall
  obtain ⟨node, hnode, hshown⟩ := Option.any_eq_true _ _ |>.1 hcheck
  rw [Bool.and_eq_true, decide_eq_true_eq] at hshown
  obtain ⟨hphrase, hends⟩ := hshown
  have hstacked : enteredSession.Stacked #[0] := ⟨rfl, by simp [enteredSession], Nat.zero_lt_one⟩
  have hisolation := stack_isolation hp
  have hundisturbing : ∀ fuel, Undisturbing (evaluate p fuel node) #[0] enteredSession := by
    intro fuel
    have hisolates := hisolation.2 _ node hnode fuel enteredSession #[0] hstacked
    exact (hisolates.expression hphrase rfl).1
  cases hr : evaluate p 20 node enteredSession with
  | error e t =>
    rw [hr] at hends
    cases hends
  | ok c t =>
    rw [hr] at hends
    obtain ⟨rfl, hsize⟩ := of_decide_eq_true hends
    obtain ⟨hafter, hcurrent, hkeeps⟩ := (hundisturbing 20).1 _ t hr
    refine ⟨p, node, t, hp, hnode, hphrase, hstacked, rfl, ?_, hundisturbing, hr, hsize, hafter,
      hcurrent, ?_⟩
    · exact fun fuel => (hisolation.1 fuel enteredSession #[0] hstacked).1
    · -- the record is the same one, so what it has for `x` is the same
      unfold Memory.find?
      rw [hkeeps.same 0 Nat.zero_lt_one nofun]
      decide +kernel

end Program
end Scriptlet
