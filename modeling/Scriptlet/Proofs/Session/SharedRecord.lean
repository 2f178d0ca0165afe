import Scriptlet.Proofs.Session.Coupling
import Scriptlet.Proofs.Session.Safety
import Scriptlet.Proofs.Tree.Names

/-!
When the shared record does as well as a stack.

With the shared discipline all functions have their variables in one record, and nothing is taken out
of it.  A caller may find a variable changed by a function that it has called, and a function may find
a variable that an earlier call has left.  The first cannot happen where distinct functions bind
distinct names and no function is called while it is active.  The second can, but then the variable
has no value with the stack discipline, and the run halts there.

`Mirrors` relates a store with a stack to one with a shared record: every variable of every active
function has the same value in the shared record.  That stale variables are there too does not matter.
An assignment keeps the relation because the variable belongs to one active function only; a call adds
a function with no variables, and a return drops one.

That the active functions are distinct is what the absence of recursion is for.  The functions that
are active form a chain of calls, so if one were called while it is active it would call itself,
perhaps through others.  The list of active functions is therefore part of the relation (`Mirrored`),
and it is what the judgement below hands to its laws.  That what is assigned in a function is bound by
it is the other thing that the laws need to know, and this is what the judgement calls `within`.

A run that reads a variable without a value halts with the stack discipline.  Then nothing is claimed
of the other run, and the relation of the two has this halt as its excuse.

Main statement: `shared_agrees_of_separate`, for every program that is read and has separate
functions.
-/

namespace Scriptlet

open Relation (TransGen)

/-- An active function with its record. -/
structure Frame where
  function : String
  record : Handle

/-- The records of the frames; the top of the stack comes first in the frames and last here. -/
def stackOf (frames : List Frame) : Array Handle := (frames.map Frame.record).reverse.toArray

theorem stackOf_cons (frame : Frame) (frames : List Frame) :
    stackOf (frame :: frames) = (stackOf frames).push frame.record := by
  simp [stackOf]

/-- The record of the function called last is the top. -/
theorem back?_stackOf (frames : List Frame) :
    (stackOf frames).back? = frames.head?.map Frame.record := by
  cases frames with
  | nil => rfl
  | cons frame frames => rw [stackOf_cons, Array.back?_push, List.head?_cons, Option.map_some]

/-- Every variable of an active function has the same value in the shared record `shared`.  The active
functions are distinct: each has been called by the one below. -/
structure Mirrors (p : Program) (shared : Handle) (frames : List Frame) (σ τ : Store) : Prop where
  stack : σ.1.holding = .stack (stackOf frames)
  allocated : ∀ frame ∈ frames, frame.record < σ.1.records.size
  distinct : frames.Pairwise fun callee caller => caller.record ≠ callee.record
  called : frames.Pairwise fun callee caller => TransGen p.Calls caller.function callee.function
  top : ∀ frame ∈ frames.head?, σ.2 = frame.record
  holding : τ.1.holding = .shared shared
  sharedAllocated : shared < τ.1.records.size
  current : frames ≠ [] → τ.2 = shared
  values : ∀ frame ∈ frames, ∀ name v, σ.1.find? frame.record name = some v →
    p.Binds frame.function name ∧ τ.1.find? shared name = some v

/-- The stores mirror each other while the functions are active, the one that was called last first.
-/
def Mirrored (p : Program) (shared : Handle) (functions : List String) (σ τ : Store) : Prop :=
  ∃ frames, frames.map Frame.function = functions ∧ Mirrors p shared frames σ τ

namespace Mirrors

variable {p : Program} {shared : Handle} {frame : Frame} {frames : List Frame} {σ τ : Store}

/-- The variables of the function at the top. -/
theorem find?_top (h : Mirrors p shared (frame :: frames) σ τ) {name : String} {v : Value}
    (hv : σ.1.find? σ.2 name = some v) : τ.1.find? τ.2 name = some v := by
  rw [h.top frame rfl] at hv
  rw [h.current (List.cons_ne_nil _ _)]
  exact (h.values frame List.mem_cons_self name v hv).2

/-- The function at the top gives one of its variables a value.  No other active function has it. -/
theorem assigned (hp : p.Separate) (h : Mirrors p shared (frame :: frames) σ τ) {name : String}
    (hname : p.Binds frame.function name) (v : Value) :
    Mirrors p shared (frame :: frames) (σ.1.insert σ.2 name v, σ.2)
      (τ.1.insert τ.2 name v, τ.2) := by
  have htop := h.top frame rfl
  have hcurrent := h.current (List.cons_ne_nil _ _)
  refine ⟨h.stack, ?_, h.distinct, h.called, h.top, h.holding, ?_, h.current, ?_⟩
  · intro other hother
    rw [Memory.size_insert]
    exact h.allocated other hother
  · rw [Memory.size_insert]
    exact h.sharedAllocated
  · intro other hother read w hw
    dsimp only at hw ⊢
    rw [htop, Memory.find?_insert (h.allocated frame List.mem_cons_self)] at hw
    rw [hcurrent, Memory.find?_insert h.sharedAllocated]
    rcases List.mem_cons.1 hother with rfl | hcaller
    · -- the function itself
      by_cases hread : read = name
      · subst hread
        rw [if_pos ⟨rfl, rfl⟩] at hw ⊢
        exact ⟨hname, hw⟩
      · rw [if_neg fun both => hread both.2] at hw ⊢
        exact h.values other hother read w hw
    · -- one of its callers: it has another record, and does not bind the name
      have hrecord : other.record ≠ frame.record := (List.pairwise_cons.1 h.distinct).1 other hcaller
      rw [if_neg fun both => hrecord both.1] at hw
      obtain ⟨hbinds, hvalue⟩ := h.values other hother read w hw
      have hread : read ≠ name := by
        rintro rfl
        have hcalled := (List.pairwise_cons.1 h.called).1 other hcaller
        have hne : other.function ≠ frame.function := by
          intro heq
          rw [heq] at hcalled
          exact hp.acyclic _ hcalled
        exact hp.disjoint _ _ _ hne hbinds hname
      rw [if_neg fun both => hread both.2]
      exact ⟨hbinds, hvalue⟩

/-- A function is entered, and has no variables yet. -/
theorem entered (h : Mirrors p shared frames σ τ) {function : String}
    (hcalled : ∀ caller ∈ frames, TransGen p.Calls caller.function function) :
    Mirrors p shared (⟨function, σ.1.records.size⟩ :: frames)
      ((σ.1.enter function).memory, (σ.1.enter function).record)
      ((τ.1.enter function).memory, (τ.1.enter function).record) := by
  obtain ⟨⟨records, holding⟩, current⟩ := σ
  obtain ⟨⟨records', holding'⟩, current'⟩ := τ
  obtain ⟨rfl, hallocated, hdistinct, hcallers, htop, rfl, hshared, hcurrent, hvalues⟩ := h
  dsimp only at hallocated hshared hvalues ⊢
  refine ⟨?_, ?_, ?_, ?_, ?_, rfl, hshared, fun _ => rfl, ?_⟩
  · rw [stackOf_cons]
    rfl
  · refine List.forall_mem_cons.2 ⟨?_, fun frame hframe => ?_⟩
    · show records.size < (records.push _).size
      rw [Array.size_push]
      exact Nat.lt_succ_self _
    · show frame.record < (records.push _).size
      rw [Array.size_push]
      exact Nat.lt_succ_of_lt (hallocated frame hframe)
  · exact List.pairwise_cons.2 ⟨fun caller hcaller => Nat.ne_of_lt (hallocated caller hcaller),
      hdistinct⟩
  · exact List.pairwise_cons.2 ⟨hcalled, hcallers⟩
  · intro frame hframe
    cases hframe
    rfl
  · intro frame hframe name v hv
    have hbefore : (⟨records, .stack (stackOf frames)⟩ : Memory).find? frame.record name = some v := by
      rw [← hv]
      exact (Memory.find?_push_empty _).symm
    rcases List.mem_cons.1 hframe with rfl | hold
    · -- the new record was not there before
      rw [Memory.find?, Array.getElem?_size] at hbefore
      cases hbefore
    · exact hvalues frame hold name v hbefore

/-- A function returns, and its variables are no longer looked at. -/
theorem resumed (h : Mirrors p shared (frame :: frames) σ τ) :
    Mirrors p shared frames (σ.1.restore.memory, σ.1.restore.record)
      (τ.1.restore.memory, τ.1.restore.record) := by
  obtain ⟨⟨records, holding⟩, current⟩ := σ
  obtain ⟨⟨records', holding'⟩, current'⟩ := τ
  obtain ⟨rfl, hallocated, hdistinct, hcallers, htop, rfl, hshared, hcurrent, hvalues⟩ := h
  obtain ⟨-, hallocated⟩ := List.forall_mem_cons.1 hallocated
  obtain ⟨-, hvalues⟩ := List.forall_mem_cons.1 hvalues
  have hdistinct := (List.pairwise_cons.1 hdistinct).2
  have hcallers := (List.pairwise_cons.1 hcallers).2
  have hpop : (stackOf (frame :: frames)).pop = stackOf frames := by
    rw [stackOf_cons, Array.pop_push]
  simp only [Memory.restore, hpop, back?_stackOf]
  cases frames with
  | nil =>
    -- nothing is active; the fresh record is of no interest
    refine ⟨rfl, ?_, .nil, .nil, ?_, rfl, hshared, fun hne => absurd rfl hne, ?_⟩
    all_goals exact fun frame hframe => by cases hframe
  | cons caller callers =>
    refine ⟨rfl, hallocated, hdistinct, hcallers, ?_, rfl, hshared, fun _ => rfl, hvalues⟩
    intro frame hframe
    cases hframe
    rfl

/-- Whoever the function at the top calls, all active functions call, directly or through others. -/
theorem calls (h : Mirrors p shared frames σ τ) {callee : String}
    (hcall : ∀ frame ∈ frames.head?, p.Calls frame.function callee) :
    ∀ caller ∈ frames, TransGen p.Calls caller.function callee := by
  cases frames with
  | nil => simp
  | cons frame frames =>
    have hdirect : p.Calls frame.function callee := hcall frame rfl
    refine List.forall_mem_cons.2 ⟨.single hdirect, fun caller hcaller => ?_⟩
    exact .tail ((List.pairwise_cons.1 h.called).1 caller hcaller) hdirect

end Mirrors

/-- The function that was called last has the frame at the top. -/
theorem Mirrored.exists_top {p : Program} {shared : Handle} {f : String} {callers : List String}
    {σ τ : Store} (h : Mirrored p shared (f :: callers) σ τ) :
    ∃ record frames, frames.map Frame.function = callers ∧
      Mirrors p shared (⟨f, record⟩ :: frames) σ τ := by
  obtain ⟨frames, hframes, hmirrors⟩ := h
  cases frames with
  | nil => cases hframes
  | cons frame frames =>
    obtain ⟨rfl, hcallers⟩ := List.cons.inj hframes
    exact ⟨frame.record, frames, hcallers, hmirrors⟩

namespace Evaluation

open Node

/-- The halt at a variable that has no value. -/
def IsUndefined (e : Halt) : Prop := ∃ name line, e = .fault ⟨.undefinedVariable name, line⟩

variable {p : Program} {shared : Handle} {f : String} {functions callers : List String}

/-! ## Variables and records

The operations of a session, one by one, in two sessions that mirror each other. -/

/-- A variable that has a value has the same one in both; one that has none is the excuse. -/
theorem keeping_lookUp {name : String} {line : Nat} :
    Keeping IsUndefined (Mirrored p shared (f :: callers)) (lookUp name line)
      (lookUp name line) := by
  unfold lookUp
  split
  · exact .pure fun _ _ hR => hR
  · refine .get_bind fun s t _ hR => ?_
    obtain ⟨record, frames, -, hmirrors⟩ := hR.exists_top
    split
    · next v hv =>
      have ht : t.memory.find? t.current name = some v := hmirrors.find?_top hv
      rw [ht]
      exact .pure fun _ _ hR => hR
    · exact .excuse ⟨name, some line, rfl⟩

/-- A variable of the active function is changed in both, and it is no other function's. -/
theorem keeping_assign (hp : p.Separate) {name : String} {v : Value} (hname : p.Binds f name) :
    Keeping IsUndefined (Mirrored p shared (f :: callers)) (assign name v) (assign name v) := by
  refine .modify (fun _ _ h => ⟨h.input, h.output⟩) fun s t hR => ?_
  obtain ⟨record, frames, hcallers, hmirrors⟩ := hR.exists_top
  exact ⟨⟨f, record⟩ :: frames, congrArg (f :: ·) hcallers, hmirrors.assigned hp hname v⟩

/-- A function is entered that the function at the top calls. -/
theorem relates_enter {callee : String} (hcall : ∀ f ∈ functions.head?, p.Calls f callee) :
    Relates IsUndefined (Mirrored p shared functions) (enter callee) (enter callee)
      fun _ => Mirrored p shared (callee :: functions) := by
  refine .modify (fun _ _ h => ⟨h.input, h.output⟩) ?_
  rintro s t ⟨frames, hframes, hmirrors⟩
  subst hframes
  have hcalled := hmirrors.calls fun frame hframe => hcall frame.function (by
    rw [List.head?_map, hframe]
    rfl)
  exact ⟨_ :: frames, rfl, hmirrors.entered hcalled⟩

/-- A return drops a function in one and nothing in the other. -/
theorem relates_resume :
    Relates IsUndefined (Mirrored p shared (f :: callers)) resume resume
      fun _ => Mirrored p shared callers := by
  refine .modify (fun _ _ h => ⟨h.input, h.output⟩) fun s t hR => ?_
  obtain ⟨record, frames, hcallers, hmirrors⟩ := hR.exists_top
  exact ⟨frames, hcallers, hmirrors.resumed⟩

/-- A `return` drops the function at the top. -/
theorem relates_return {v : Value} :
    Relates IsUndefined (Mirrored p shared (f :: callers))
      (do
        resume
        report (.returning v)
        pure (.returned v))
      (do
        resume
        report (.returning v)
        pure (.returned v))
      (unlessReturned (Mirrored p shared (f :: callers)) (Mirrored p shared callers)) :=
  relates_resume.bind fun _ => keeping_report.bind fun _ => .pure fun _ _ hR => hR

/-- A call adds a function that is not active and drops it in the end. -/
theorem keeping_frame {callee : String} {arguments : List Value} {given : Evaluation Unit}
    {body : Evaluation Completion} (hcall : ∀ f ∈ functions.head?, p.Calls f callee)
    (hgiven : Keeping IsUndefined (Mirrored p shared (callee :: functions)) given given)
    (hbody : Relates IsUndefined (Mirrored p shared (callee :: functions)) body body
      (unlessReturned (Mirrored p shared (callee :: functions)) (Mirrored p shared functions))) :
    Keeping IsUndefined (Mirrored p shared functions)
      (do
        report (.calling callee arguments)
        enter callee
        given
        match ← body with
        | .returned v => pure v
        | _ => do
          resume
          pure .none)
      (do
        report (.calling callee arguments)
        enter callee
        given
        match ← body with
        | .returned v => pure v
        | _ => do
          resume
          pure .none) := by
  refine keeping_report.bind fun _ => (relates_enter hcall).bind fun _ => ?_
  refine hgiven.bind fun _ => hbody.bind fun c => ?_
  -- a body that has returned has handed its record back, and every other one does so now
  cases c with
  | returned v => exact .pure fun _ _ hR => hR
  | normal => exact relates_resume.bind fun _ => .pure fun _ _ hR => hR
  | value v => exact relates_resume.bind fun _ => .pure fun _ _ hR => hR

/-! ## Whole programs -/

/-- **Mirroring is a judgement** of a program with separate functions.  It depends on which functions
are active, and on the names that are bound and called in each of them. -/
def mirroring (hs : p.Separate) (shared : Handle) : Judgement p where
  within := p.Within
  asks functions _ _ d := Keeping IsUndefined (Mirrored p shared functions) d.held d.held
  does functions _ d := Keeping IsUndefined (Mirrored p shared functions) d.held d.held
  ends functions d :=
    Relates IsUndefined (Mirrored p shared functions) d.held d.held
      (unlessReturned (Mirrored p shared functions) (Mirrored p shared functions.tail))
  child ht hu := ht.child hu
  declared hf hu := Program.within_of_mem_children hf hu
  asks_done := .pure fun _ _ hR => hR
  asks_halt _ := .throw
  asks_bind hd hg := by
    rw [Dialogue.held_bind]
    exact hd.bind hg
  asks_visit := by
    intros
    rw [Dialogue.held_mark]
    exact .pure fun _ _ hR => hR
  asks_lookUp := by
    intros
    rw [Dialogue.held_lookUp]
    exact keeping_lookUp
  asks_flush := by
    intros
    rw [Dialogue.held_flush]
    exact keeping_flush
  does_of_asks hd := hd
  does_bind hd hg := by
    rw [Dialogue.held_bind]
    exact hd.bind hg
  does_assign ht hname := by
    rw [Dialogue.held_assign]
    exact keeping_assign hs (ht.binds hname)
  does_parameter hf ht hname := by
    rw [Dialogue.held_assign]
    exact keeping_assign hs (Program.binds_parameter hf ht hname)
  does_write := by
    intros
    rw [Dialogue.held_write]
    exact keeping_writeLine
  does_read := by
    intros
    rw [Dialogue.held_read]
    exact keeping_nextLine
  ends_done := .pure fun _ _ hR => hR
  ends_bind hd hg := by
    rw [Dialogue.held_bind]
    exact hd.bind hg
  ends_followed hd hd' :=
    (congrArg (fun x => Relates IsUndefined _ x x _) Dialogue.held_followed).mpr
      (relates_followed hd hd')
  ends_returning := by
    intros
    simp only [Dialogue.held_bind, Dialogue.held_resume, Dialogue.held_report, Dialogue.pure_eq,
      Dialogue.held_done]
    exact relates_return
  asks_frame hcall hgiven hbody _ := by
    rw [Dialogue.held_frame]
    refine keeping_frame (fun f hf => ?_) hgiven hbody
    obtain ⟨t, ht, hcallee⟩ := hcall f hf
    exact ht.calls hcallee

/-- A run, which starts with no function active. -/
theorem keeping_run (hp : p.WellFormed) (hs : p.Separate) (fuel : Nat) :
    Keeping IsUndefined (Mirrored p shared []) (run p fuel) (run p fuel) := by
  have hrun : Keeping IsUndefined (Mirrored p shared []) (Dialogue.run p fuel).held
      (Dialogue.run p fuel).held := (mirroring hs shared).asks_run hp fuel
  rwa [Dialogue.held_run] at hrun

end Evaluation

/-! ## Programs -/

namespace Program

open Evaluation

/-- Before a run nothing is active. -/
theorem mirrored_start (p : Program) (input : List UInt8) (output : Output) :
    Mirrored p 0 [] (Session.start .stack input output).store
      (Session.start .shared input output).store := by
  refine ⟨[], rfl, rfl, ?_, .nil, .nil, ?_, rfl, Nat.zero_lt_two, fun hne => absurd rfl hne, ?_⟩
  all_goals exact fun frame hframe => by cases hframe

/-- **The shared record agrees with the stack** where distinct functions bind distinct names and no
function calls itself, directly or through others.  Unless the run with the stack halts at a variable
that has no value, the run with the shared record comes to the same value or the same fault, with the
same output and the same input left. -/
theorem shared_agrees_of_separate {source : String} {p : Program} (h : parse source = .ok p)
    (hs : p.Separate) (fuel : Nat) (input : List UInt8) (output : Output)
    (hdefined : ∀ name line, (p.runIn fuel (.start .stack input output)).1 ≠
      .error (.fault ⟨.undefinedVariable name, line⟩)) :
    (p.runIn fuel (.start .shared input output)).1 = (p.runIn fuel (.start .stack input output)).1 ∧
    (p.runIn fuel (.start .shared input output)).2.output =
      (p.runIn fuel (.start .stack input output)).2.output ∧
    (p.runIn fuel (.start .shared input output)).2.input =
      (p.runIn fuel (.start .stack input output)).2.input := by
  have hrun := keeping_run (wellFormed_of_parse h) hs fuel (.start .stack input output)
    (.start .shared input output) ⟨rfl, rfl⟩ (mirrored_start p input output)
  -- the run with the stack is the one that may halt at a name that is not defined
  unfold Coupled at hrun
  unfold runIn at hdefined ⊢
  cases hstack : run p fuel (.start .stack input output) with
  | ok v s =>
    rw [hstack] at hrun
    obtain ⟨t, ht, hstreams, -⟩ := hrun
    rw [ht]
    exact ⟨rfl, hstreams.output, hstreams.input⟩
  | error e s =>
    rw [hstack] at hrun hdefined
    rcases hrun with ⟨name, line, rfl⟩ | ⟨t, ht, hstreams⟩
    · exact absurd rfl (hdefined name line)
    · rw [ht]
      exact ⟨rfl, hstreams.output, hstreams.input⟩

/-- It holds of a program in which a function is called twice, so that its variables are there before
the second call where the record is shared. -/
theorem shared_agrees_of_separate_twice :
    ∃ p, parse "fun f(a) { b = a + a; return b } fun main() { read(x); write(f(f(x))) }" = .ok p ∧
      p.Separate ∧
      (p.runIn 20 (.start .shared [104, 105, 10] .unlimited)).1 =
        (p.runIn 20 (.start .stack [104, 105, 10] .unlimited)).1 ∧
      (p.runIn 20 (.start .shared [104, 105, 10] .unlimited)).2.output =
        (p.runIn 20 (.start .stack [104, 105, 10] .unlimited)).2.output ∧
      (p.runIn 20 (.start .shared [104, 105, 10] .unlimited)).2.input =
        (p.runIn 20 (.start .stack [104, 105, 10] .unlimited)).2.input := by
  have hchecked : (parse
      "fun f(a) { b = a + a; return b } fun main() { read(x); write(f(f(x))) }").toOption.any
        fun p => decide (
          (∀ f ∈ p.functions.names, ∀ g ∈ p.functions.names, f ≠ g →
            ∀ name ∈ p.boundNames f, name ∉ p.boundNames g) ∧
          (∀ f ∈ p.functions.names, ∀ g ∈ p.calledNames f,
            (if g = "main" then 1 else 0) < (if f = "main" then 1 else 0)) ∧
          (p.runIn 20 (.start .stack [104, 105, 10] .unlimited)).1.isOk) := by
    decide +kernel
  obtain ⟨p, hp, hcheck⟩ := exists_of_any hchecked
  obtain ⟨hdisjoint, hrank, hok⟩ := of_decide_eq_true hcheck
  have hs : p.Separate := separate_of_rank (if · = "main" then 1 else 0) hdisjoint hrank
  have hdefined : ∀ name line, (p.runIn 20 (.start .stack [104, 105, 10] .unlimited)).1 ≠
      .error (.fault ⟨.undefinedVariable name, line⟩) := by
    intro name line hundefined
    rw [hundefined] at hok
    cases hok
  exact ⟨p, hp, hs, shared_agrees_of_separate hp hs 20 _ _ hdefined⟩

/-- Here both functions bind the same name: the caller gets back what it has read itself, or what the
function that it called has read. -/
example :
    (parse "fun f() { read(x) } fun main() { read(x); y = f(); return x }").toOption.map
        (fun p => ((p.runIn 20 (.start .stack [97, 10, 98, 10] .unlimited)).1.toOption,
          (p.runIn 20 (.start .shared [97, 10, 98, 10] .unlimited)).1.toOption)) =
      some (some (.text "a"), some (.text "b")) := by decide +kernel

end Program
end Scriptlet
