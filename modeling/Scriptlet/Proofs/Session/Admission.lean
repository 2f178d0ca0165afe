import Scriptlet.Proofs.Session.Invariant

/-!
Values that a program can come to.

Values enter a session as literals of the program, as lines of the input and as results of operators;
from there they go through variables, arguments and returned values without being changed.  So a
property that the ones have and that `+` keeps (`Admission.Closed`) is had by every value in every
session that the program comes to: in its records, in its log, and in what an evaluation ends with.

That the values of a session are admitted is an invariant (`invariant_admitted`): there is one lemma
for each operation of a session, and the only ones with anything to show are those that store a value,
report one, or hand out a record, which is an old one or empty.  It does not depend on how many
functions are active, so it holds behind a halt as well.

How it is kept inside a run is said by an evaluator that looks at every session and every completion
on its way (`evaluateAdmitted`) and halts, in a way in which no run does, where a value is not
admitted.  It is an evaluator with a guard, so it is `evaluate` all the same.

Main statements: `runAdmitted_eq` and `Program.admitted_runIn` for runs, `admitting_evaluate` for the
nodes of a program.
-/

namespace Scriptlet

/-- Which values are admitted, and which input may still be before the program. -/
structure Admission where
  value : Value → Bool
  input : List UInt8 → Bool

/-- What the values have that enter a session, and what `+` keeps. -/
structure Admission.Closed (k : Admission) : Prop where
  number : ∀ x, k.value (.number x) = true
  literal : ∀ s, IsLiteral s → k.value (.text s) = true
  add : ∀ a b, k.value a = true → k.value b = true → k.value (a.add b) = true
  rest : ∀ bytes, k.input bytes = true → k.input (splitLine bytes).2 = true
  line : ∀ bytes text, k.input bytes = true → textOfBytes? (splitLine bytes).1 = some text →
    k.value (.ofText (lineContent text)) = true

/-- The values that an event reports are admitted. -/
def Event.Admitted (k : Admission) (e : Event) : Prop := e.All (k.value · = true)

/-- The value that an evaluation ends with is admitted. -/
def Completion.Admitted (k : Admission) (c : Completion) : Prop := c.All (k.value · = true)

/-- All values in the session are admitted: those of the variables, and the arguments and returned
values that have been reported. -/
structure Session.Admitted (k : Admission) (s : Session) : Prop where
  stored : ∀ record ∈ s.memory.records, ∀ entry ∈ record.entries, k.value entry.2 = true
  logged : ∀ e ∈ s.log.toList, e.Admitted k
  input : k.input s.input = true

instance (k : Admission) : (e : Event) → Decidable (e.Admitted k)
  | .calling _ arguments => inferInstanceAs (Decidable (∀ v ∈ arguments, k.value v = true))
  | .returning v => inferInstanceAs (Decidable (k.value v = true))
  | .token _ | .declared _ _ | .enteringShared _ | .entering _ _ | .resuming _ => .isTrue trivial

instance (k : Admission) : (c : Completion) → Decidable (c.Admitted k)
  | .normal => .isTrue trivial
  | .value v | .returned v => inferInstanceAs (Decidable (k.value v = true))

instance (k : Admission) (s : Session) : Decidable (s.Admitted k) :=
  decidable_of_iff
    ((∀ record ∈ s.memory.records, ∀ entry ∈ record.entries, k.value entry.2 = true) ∧
      (∀ e ∈ s.log.toList, e.Admitted k) ∧ k.input s.input = true)
    ⟨fun ⟨stored, logged, input⟩ => ⟨stored, logged, input⟩,
      fun h => ⟨h.stored, h.logged, h.input⟩⟩

/-! ## Variables

What the entries of a table have, those that are found have. -/

namespace Table

variable {α : Type} {q : α → Bool}

/-- A variable that is given a value with the property, among others that have it. -/
theorem forall_mem_replaceIn {name : String} {value : α} {entries : List (String × α)}
    (hvalue : q value = true) (h : ∀ entry ∈ entries, q entry.2 = true) :
    ∀ entry ∈ replaceIn name value entries, q entry.2 = true := by
  induction entries with
  | nil => exact List.forall_mem_singleton.2 hvalue
  | cons first rest ih =>
    obtain ⟨hfirst, hrest⟩ := List.forall_mem_cons.1 h
    unfold replaceIn
    split
    · exact List.forall_mem_cons.2 ⟨hvalue, hrest⟩
    · exact List.forall_mem_cons.2 ⟨hfirst, ih hrest⟩

/-- A variable that is found has a value with the property. -/
theorem of_findIn {name : String} {value : α} {entries : List (String × α)}
    (h : ∀ entry ∈ entries, q entry.2 = true) (hfind : findIn name entries = some value) :
    q value = true := by
  induction entries with
  | nil => cases hfind
  | cons first rest ih =>
    obtain ⟨hfirst, hrest⟩ := List.forall_mem_cons.1 h
    unfold findIn at hfind
    split at hfind
    · cases hfind
      exact hfirst
    · exact ih hrest hfind

end Table

namespace Session.Admitted

variable {k : Admission} {s : Session} {input : List UInt8}

/-- The value of a variable is admitted. -/
theorem of_find? (h : s.Admitted k) {record : Handle} {name : String} {v : Value}
    (hfind : s.memory.find? record name = some v) : k.value v = true := by
  obtain ⟨bindings, hbindings, hv⟩ := Option.bind_eq_some_iff.1 hfind
  exact Table.of_findIn (h.stored bindings (Array.mem_of_getElem? hbindings)) hv

/-- In a new session there are no values yet. -/
theorem start (h : k.input input = true) (discipline : Discipline) (output : Output) :
    (Session.start discipline input output).Admitted k := by
  refine ⟨fun record hrecord entry hentry => ?_, fun e he => absurd he List.not_mem_nil, h⟩
  -- all records are empty
  have hempty : record = .empty := by
    cases discipline <;> simpa [Session.start, Memory.new, Memory.fresh] using hrecord
  rw [hempty] at hentry
  exact absurd hentry List.not_mem_nil

/-- An admitted value may be assigned. -/
theorem assigned (h : s.Admitted k) {record : Handle} {name : String} {v : Value}
    (hv : k.value v = true) : { s with memory := s.memory.insert record name v }.Admitted k := by
  refine ⟨fun r hr => ?_, h.logged, h.input⟩
  obtain ⟨i, hi, rfl⟩ := Array.mem_iff_getElem.1 hr
  have hold := h.stored _ (Array.getElem_mem (by simpa [Memory.insert] using hi))
  simp only [Memory.insert, Array.getElem_modify]
  split
  · exact Table.forall_mem_replaceIn hv hold
  · exact hold

/-- An event whose values are admitted may be reported. -/
theorem reported (h : s.Admitted k) {e : Event} (he : e.Admitted k) :
    { s with log := s.log.add e }.Admitted k := by
  refine ⟨h.stored, ?_, h.input⟩
  rw [Log.toList_add]
  exact List.forall_mem_append.2 ⟨h.logged, List.forall_mem_singleton.2 he⟩

/-- A record that is handed out is one of the session or empty, and no value is reported. -/
theorem taken (h : s.Admitted k) {handout : Memory → Handout}
    (hrecords : (handout s.memory).memory.records = s.memory.records ∨
      (handout s.memory).memory.records = s.memory.records.push .empty)
    (hevents : ∀ e ∈ (handout s.memory).events, e.Admitted k) : (s.handOut handout).Admitted k := by
  unfold Session.handOut
  refine ⟨?_, ?_, h.input⟩
  · rcases hrecords with hsame | hpush
    · rw [hsame]
      exact h.stored
    · rw [hpush]
      intro record hrecord
      rcases Array.mem_push.1 hrecord with hold | rfl
      · exact h.stored record hold
      · exact fun entry hentry => absurd hentry List.not_mem_nil
  · rw [Log.toList_addAll]
    exact List.forall_mem_append.2 ⟨h.logged, hevents⟩

/-- The record of a function that is entered is the shared one, or a new one that is empty. -/
theorem entered (h : s.Admitted k) (function : String) :
    (s.handOut (·.enter function)).Admitted k := by
  apply h.taken
  · generalize s.memory = m
    obtain ⟨records, shared | active⟩ := m
    · exact Or.inl rfl
    · exact Or.inr rfl
  · generalize s.memory = m
    obtain ⟨records, shared | active⟩ := m
    · exact List.forall_mem_singleton.2 trivial
    · exact List.forall_mem_singleton.2 trivial

/-- The record that is handed back is one of the session, or a new one where there is none left. -/
theorem resumed (h : s.Admitted k) : (s.handOut Memory.restore).Admitted k := by
  apply h.taken
  · -- with the stack discipline a record below is resumed, or an empty one is made
    generalize s.memory = m
    obtain ⟨records, shared | active⟩ := m
    · exact Or.inl rfl
    · unfold Memory.restore
      dsimp only
      split
      · exact Or.inl rfl
      · exact Or.inr rfl
  · generalize s.memory = m
    obtain ⟨records, shared | active⟩ := m
    · exact fun e he => absurd he List.not_mem_nil
    · unfold Memory.restore
      dsimp only
      split
      · exact List.forall_mem_singleton.2 trivial
      · exact List.forall_mem_singleton.2 trivial

end Session.Admitted

/-- Every text in the tree is a literal. -/
def Node.HasLiterals (t : Node) : Prop :=
  t.Every fun node => ∀ s, node.label = .text s → IsLiteral s

namespace Evaluation

open Node

/-! ## Evaluation with a look at the values

The evaluator with a guard before and after each node. -/

/-- Evaluates a node of a program, and each node below it, with a look at the session before it, and
at the session and the completion after it. -/
def evaluateAdmitted (k : Admission) (p : Program) : Nat → Evaluator
  | 0, _ => throw .outOfFuel
  | n + 1, node => do
    let s ← get
    if s.Admitted k then do
      let c ← step p n (evaluateAdmitted k p n) node
      let t ← get
      if c.Admitted k ∧ t.Admitted k then pure c
      else malformed (.notAnExpression node.label)
    else malformed (.notAnExpression node.label)

/-- Calls the entry point of a program, as `run` does. -/
def runAdmitted (k : Admission) (p : Program) (fuel : Nat) : Evaluation Value :=
  match p.function? entryPoint with
  | none => throw (.fault ⟨.missingMain, none⟩)
  | some function => do
    let value ← invoke p (evaluateAdmitted k p fuel) entryPoint [] function.line
    flush function.line
    pure value

variable {α β : Type} {k : Admission} {p : Program}

/-! ## The invariant -/

/-- **Every operation keeps it.**  Numbers and the none literal are admitted since literals and
results of operators are. -/
theorem invariant_admitted (hk : k.Closed) :
    Invariant (k.value · = true) fun _ s => s.Admitted k where
  values := ⟨hk.number, hk.literal _ isLiteral_noneLiteral, fun ha hb => hk.add _ _ ha hb⟩
  line hs htext := hk.line _ _ hs.input htext
  advanced hs := ⟨hs.stored, hs.logged, hk.rest _ hs.input⟩
  written _ hs := ⟨hs.stored, hs.logged, hs.input⟩
  logged he hs := hs.reported he
  stored hs hv := hs.of_find? hv
  assigned _ hv hs := hs.assigned hv
  entered name hs := hs.entered name
  resumed hs := hs.resumed

/-- The looks before and behind a node do nothing where the values are admitted. -/
theorem guards_evaluateAdmitted :
    Guards p (k.value · = true) (fun _ s => s.Admitted k) (evaluateAdmitted k p) where
  zero _ := rfl
  succ := by
    intro n t d s hs hafter
    -- `s` is admitted, so the check before the step does nothing; that after it is decided by
    -- `hafter`
    have hbefore : evaluateAdmitted k p (n + 1) t s = (do
        let c ← step p n (evaluateAdmitted k p n) t
        let t' ← get
        if c.Admitted k ∧ t'.Admitted k then pure c
        else malformed (.notAnExpression t.label)) s := by
      show (if s.Admitted k then _ else _ : Evaluation Completion) s = _
      rw [if_pos hs]
    rw [hbefore]
    cases hr : step p n (evaluateAdmitted k p n) t s with
    | ok c u =>
      obtain ⟨hc, -, hu⟩ := hafter.of_ok hr
      rw [bind_of_ok hr]
      show (if c.Admitted k ∧ u.Admitted k then _ else _ : Evaluation Completion) u = _
      rw [if_pos ⟨hc, hu⟩]
      rfl
    | error e u => exact bind_of_error hr

/-- Literals are admitted, so those of a program are. -/
theorem literalsIn (hk : k.Closed) {t : Node} (h : t.HasLiterals) :
    t.LiteralsIn (k.value · = true) :=
  h.mono fun _ hnode s hs => hk.literal s (hnode s hs)

/-! ## Nodes of a program -/

/-- From a session with admitted values the evaluation leads to one, and its result satisfies `post`.
-/
def Admitting (k : Admission) (x : Evaluation α) (post : α → Prop) : Prop :=
  ∀ s, s.Admitted k → Leads x s (fun a t => post a ∧ t.Admitted k) fun _ t => t.Admitted k

section Rules

variable {x : Evaluation α} {post : α → Prop}

theorem Admitting.pure {a : α} (h : post a) : Admitting k (Pure.pure a) post :=
  fun _ hs => Leads.pure ⟨h, hs⟩

theorem Admitting.throw {e : Halt} : Admitting k (throw e : Evaluation α) post :=
  fun _ hs => Leads.throw hs

theorem Admitting.bind {f : α → Evaluation β} {post' : β → Prop} (hx : Admitting k x post)
    (hf : ∀ a, post a → Admitting k (f a) post') : Admitting k (x >>= f) post' :=
  fun s hs => Leads.bind (hx s hs) fun a t ha => hf a ha.1 t ha.2

/-- What goes the same way as itself keeps the invariant. -/
theorem admitting_of_simulates {Q : α → Session → Session → Prop} {d : Nat}
    (h : Simulates (together fun _ s => s.Admitted k) (Common (fun _ s => s.Admitted k) d) x x Eq Q)
    (hQ : ∀ a t u, Q a t u → t = u ∧ post a ∧ ∃ _ : Nat, t.Admitted k) : Admitting k x post := by
  intro s hs
  refine (eq_of_simulates h hQ hs).2.mono ?_ ?_
  · rintro a t ⟨ha, -, ht⟩
    exact ⟨ha, ht⟩
  · rintro e t ⟨-, ht⟩
    exact ht

end Rules

/-- **The evaluation of a node of a program keeps the invariant**, and comes to an admitted value if
it comes to one.  The root and the functions are nodes too, but their evaluation does nothing. -/
theorem admitting_evaluate (hk : k.Closed) (hp : p.WellFormed) (hroot : p.root.HasLiterals) (n : Nat)
    {t : Node} (ht : t = p.root ∨ IsInner t) (hliterals : t.HasLiterals) :
    Admitting k (evaluate p n t) (Completion.Admitted k) := by
  have hI := invariant_admitted hk
  have hlits := literalsIn hk hliterals
  -- the root and the functions are no statements, and evaluating them does nothing
  have hnothing : (∀ m, step p m (evaluate p m) t = pure .normal) →
      Admitting k (evaluate p n t) (Completion.Admitted k) := by
    intro hstep
    cases n with
    | zero => exact .throw
    | succ n =>
      rw [evaluate_succ, hstep]
      exact .pure trivial
  rcases ht with rfl | hinner
  · refine hnothing fun m => ?_
    unfold step
    rw [hp.label]
  · cases hinner with
    | function h =>
      cases h
      exact hnothing fun m => rfl
    | statement h =>
      have hbelow := guards_evaluate.below hI hp (literalsIn hk hroot) n
      exact admitting_of_simulates (hbelow.statement 0 h ⟨rfl, hlits⟩) common_unwound
    | condition h =>
      exact admitting_of_simulates
        (guards_evaluate.condition (d := 0) hI hp (literalsIn hk hroot) n h hlits) common_gives

/-- The value of a part is admitted if what the part comes to is. -/
theorem Admitting.valueOf {eval : Evaluator} {t : Node}
    (h : Admitting k (eval t) (Completion.Admitted k)) :
    Admitting k (valueOf eval t) fun v => k.value v = true := by
  refine h.bind fun c hc => ?_
  split
  · exact .pure hc
  · exact .pure hc
  · exact .throw

/-- What holds of the children of a node holds of its operands. -/
theorem admitting_operands {q : Node → Prop} {t : Node} (h : ∀ child ∈ t.children, q child) :
    Admitting k (operands t) fun parts => q parts.1 ∧ q parts.2 := by
  unfold operands
  split
  · next first second hfirst hsecond =>
    exact .pure ⟨h first (mem_of_first? hfirst), h second (mem_of_second? hsecond)⟩
  · exact .throw

/-! ## Runs -/

variable {s : Session}

/-- The run that looks is the run itself, and it leads from admitted values to admitted values. -/
theorem runAdmitted_eq (hk : k.Closed) (hp : p.WellFormed) (hroot : p.root.HasLiterals) (fuel : Nat)
    (hs : s.Admitted k) :
    runAdmitted k p fuel s = run p fuel s ∧
      Leads (run p fuel) s (fun v t => k.value v = true ∧ t.Admitted k) fun _ t => t.Admitted k := by
  obtain ⟨heq, hleads⟩ :=
    guards_evaluateAdmitted.start (invariant_admitted hk) hp (literalsIn hk hroot) fuel hs
  exact ⟨heq, hleads.mono (fun _ _ h => h) fun _ _ ⟨_, h⟩ => h⟩

end Evaluation

/-- **A run leaves only admitted values**, and yields one if it ends. -/
theorem Program.admitted_runIn {k : Admission} (hk : k.Closed) {p : Program} (hp : p.WellFormed)
    (hroot : p.root.HasLiterals) {s : Session} (hs : s.Admitted k) (fuel : Nat) :
    (p.runIn fuel s).2.Admitted k ∧ ∀ v, (p.runIn fuel s).1 = .ok v → k.value v = true := by
  have hrun := (Evaluation.runAdmitted_eq hk hp hroot fuel hs).2
  unfold runIn
  split
  · next v t ht =>
    obtain ⟨hv, hadmitted⟩ := hrun.of_ok ht
    refine ⟨hadmitted, fun w hw => ?_⟩
    cases hw
    exact hv
  · next e t ht =>
    refine ⟨hrun.of_error ht, fun w hw => ?_⟩
    cases hw

end Scriptlet
