import Scriptlet.Proofs.Session.Judgement

/-!
Stack isolation: with the stack discipline no call disturbs the records of its callers.

Entering a function pushes a record and `return` pops one, but the two are far apart: the push is in
the call, the pop is in a statement below any number of blocks, loops and choices.  That they balance
is an invariant of expressions and statements together.

* An expression leaves the stack as it was, with the same variables in every record (`Isolated`).
  The current record is the same one too, if it was the top; after a call it is the top in any case,
  or a new empty record where there is no top.
* A statement runs with the top of the stack as the current record and changes no other record.  Where
  it ends normally the stack is as before, where it returns one record has been popped (`Framed`).
* Where either halts, the stack has at most grown.

Records are compared by their handles, so "the same record" means the same one and not an equal one.

The invariants come in two layers.  The first is about a session before and one after: which records
are kept (`Keeps`), and what has become of the stack and the current record (`Undisturbed` after an
expression, `Settled` after a statement that goes on, `Popped` after one that returns, `Interrupted`
after a halt).  They compose, so that what comes first and what comes second give what comes of both.
The second layer is about computations, and says that they take every session to one so related; there
is one rule for each way of putting computations together, derived from the composition of the first
layer.

What does not touch the memory at all is `Quiet`, and everything else follows for it.  What touches it
is an assignment, which changes the current record, a `return`, which pops it, and a call.  A call is
the one place where both layers meet: it pushes a record, its body is framed in the longer stack, and
because a well-formed body ends by returning the record is gone when the caller goes on.

The cases of the nodes are those of a `Judgement`, and `isolation` gives it the rules found here.

Main statements: `framed_evaluate` for all statements of a well-formed program, `isolated_evaluate`
for all its expressions, and `isolated_run` for a whole run.
-/

namespace Scriptlet

/-! ## Sessions before and after

The first layer: relations between two sessions, and how they compose. -/

namespace Session

/-- The stack is `active`, and its records and the current one exist. -/
structure Stacked (s : Session) (active : Array Handle) : Prop where
  holding : s.memory.holding = .stack active
  allocated : ∀ record ∈ active, record < s.memory.records.size
  current : s.current < s.memory.records.size

/-- All records of `s` are there in `t` with the same variables, but perhaps the record `changed`. -/
structure Keeps (changed : Option Handle) (s t : Session) : Prop where
  size : s.memory.records.size ≤ t.memory.records.size
  same : ∀ record < s.memory.records.size, changed ≠ some record →
    t.memory.records[record]? = s.memory.records[record]?

/-- The current record of `t` is the top of the stack `active`, or where there is none a record that
`s` did not have yet and that is empty. -/
def Resumed (active : Array Handle) (s t : Session) : Prop :=
  match active.back? with
  | some top => t.current = top
  | none => s.memory.records.size ≤ t.current ∧ t.memory.records[t.current]? = some .empty

/-- After an expression; `called` says whether there was a call in it. -/
structure Undisturbed (called : Prop) (active : Array Handle) (s t : Session) : Prop where
  stacked : t.Stacked active
  keeps : Keeps none s t
  current : ¬ called → t.current = s.current
  resumed : called → Resumed active s t

/-- After a statement that ends normally, or a part of it. -/
structure Settled (active : Array Handle) (s t : Session) : Prop where
  stacked : t.Stacked active
  keeps : Keeps (some s.current) s t
  current : t.current = s.current

/-- After a statement that returns. -/
structure Popped (active : Array Handle) (s t : Session) : Prop where
  stacked : t.Stacked active.pop
  keeps : Keeps (some s.current) s t
  resumed : Resumed active.pop s t

/-- After a halt: the stack has at most grown. -/
structure Interrupted (changed : Option Handle) (active : Array Handle) (s t : Session) : Prop where
  stacked : ∃ more, t.Stacked (active ++ more)
  keeps : Keeps changed s t

variable {changed : Option Handle} {active : Array Handle} {called called' : Prop} {s t u : Session}

theorem Keeps.refl : Keeps changed s s := ⟨Nat.le_refl _, fun _ _ _ => rfl⟩

theorem Keeps.of_eq (h : t.memory.records = s.memory.records) : Keeps changed s t :=
  ⟨Nat.le_of_eq (congrArg Array.size h).symm, fun record _ _ => by rw [h]⟩

/-- A new record changes none of the old. -/
theorem Keeps.of_push {record : Record} (h : t.memory.records = s.memory.records.push record) :
    Keeps changed s t := by
  refine ⟨?_, fun old hold _ => ?_⟩
  · rw [h, Array.size_push]
    exact Nat.le_succ _
  · rw [h, Array.getElem?_push_lt hold, Array.getElem?_eq_getElem hold]

theorem Keeps.trans (h : Keeps changed s t) (h' : Keeps changed t u) : Keeps changed s u := by
  refine ⟨Nat.le_trans h.size h'.size, fun record hrecord hne => ?_⟩
  have hlt : record < t.memory.records.size := Nat.lt_of_lt_of_le hrecord h.size
  rw [h'.same record hlt hne, h.same record hrecord hne]

/-- Where every record is kept, so are all but one. -/
theorem Keeps.weaken (h : Keeps none s t) : Keeps changed s t :=
  ⟨h.size, fun record hrecord _ => h.same record hrecord (by simp)⟩

/-- A change of a record that `s` does not have yet is none to `s`. -/
theorem Keeps.of_new {record : Handle} (h : Keeps none s t) (h' : Keeps (some record) t u)
    (hnew : s.memory.records.size ≤ record) : Keeps none s u := by
  refine ⟨Nat.le_trans h.size h'.size, fun old hold _ => ?_⟩
  have hlt : old < t.memory.records.size := Nat.lt_of_lt_of_le hold h.size
  have hne : some record ≠ some old := by
    rw [Ne, Option.some.injEq]
    exact Nat.ne_of_gt (Nat.lt_of_lt_of_le hold hnew)
  rw [h'.same old hlt hne, h.same old hold (by simp)]

/-- What is new and empty to a later session is so to an earlier one. -/
theorem Resumed.of_keeps (h : Keeps changed s t) (h' : Resumed active t u) : Resumed active s u := by
  unfold Resumed at h' ⊢
  cases hb : active.back? with
  | some top =>
    rw [hb] at h'
    exact h'
  | none =>
    rw [hb] at h'
    exact ⟨Nat.le_trans h.size h'.1, h'.2⟩

/-- Nothing happens to the current record from `t` to `u`. -/
theorem Resumed.trans (h : Resumed active s t) (ht : t.current < t.memory.records.size)
    (h' : Keeps none t u) (hcurrent : u.current = t.current) : Resumed active s u := by
  unfold Resumed at h ⊢
  cases hb : active.back? with
  | some top =>
    rw [hb] at h
    exact hcurrent.trans h
  | none =>
    rw [hb] at h
    refine ⟨hcurrent ▸ h.1, ?_⟩
    rw [hcurrent, h'.same _ ht (by simp)]
    exact h.2

/-- Two expressions in sequence.  The current record at the end is the one after the last call,
which may be in either of them. -/
theorem Undisturbed.trans (h : Undisturbed called active s t)
    (h' : Undisturbed called' active t u) : Undisturbed (called ∨ called') active s u := by
  refine ⟨h'.stacked, h.keeps.trans h'.keeps, fun hno => ?_, fun hcalled => ?_⟩
  · rw [not_or] at hno
    rw [h'.current hno.2, h.current hno.1]
  · by_cases hlast : called'
    · exact .of_keeps h.keeps (h'.resumed hlast)
    · -- the last call was in the first part
      have hfirst := hcalled.resolve_right hlast
      exact (h.resumed hfirst).trans h.stacked.current h'.keeps (h'.current hlast)

/-- An expression, and a halt in what follows. -/
theorem Undisturbed.interrupted (h : Undisturbed called active s t)
    (h' : Interrupted none active t u) : Interrupted none active s u :=
  ⟨h'.stacked, h.keeps.trans h'.keeps⟩

/-- Where the current record is the top of the stack, it stays the current one. -/
theorem Undisturbed.settled (h : Undisturbed called active s t)
    (htop : active.back? = some s.current) : Settled active s t := by
  refine ⟨h.stacked, h.keeps.weaken, ?_⟩
  by_cases hcalled : called
  · have hresumed := h.resumed hcalled
    unfold Resumed at hresumed
    rw [htop] at hresumed
    exact hresumed
  · exact h.current hcalled

/-- A part of a statement that does nothing. -/
theorem Settled.refl (h : s.Stacked active) : Settled active s s := ⟨h, .refl, rfl⟩

/-- The top of the stack is still the current record. -/
theorem Settled.top (h : Settled active s t) (htop : active.back? = some s.current) :
    active.back? = some t.current := by
  rw [h.current]
  exact htop

/-- Two statements in sequence; both change the same record, as the second has the current record
of the first. -/
theorem Settled.trans (h : Settled active s t) (h' : Settled active t u) : Settled active s u := by
  obtain ⟨hstacked, hkeeps, hcurrent⟩ := h'
  rw [h.current] at hkeeps hcurrent
  exact ⟨hstacked, h.keeps.trans hkeeps, hcurrent⟩

theorem Settled.popped (h : Settled active s t) (h' : Popped active t u) : Popped active s u := by
  obtain ⟨hstacked, hkeeps, hresumed⟩ := h'
  rw [h.current] at hkeeps
  exact ⟨hstacked, h.keeps.trans hkeeps, .of_keeps h.keeps hresumed⟩

/-- A statement, and a halt in what follows. -/
theorem Settled.interrupted (h : Settled active s t)
    (h' : Interrupted (some t.current) active t u) : Interrupted (some s.current) active s u := by
  obtain ⟨hstacked, hkeeps⟩ := h'
  rw [h.current] at hkeeps
  exact ⟨hstacked, h.keeps.trans hkeeps⟩

/-- The stack is read off the memory, so a change of anything else leaves it. -/
theorem Stacked.of_eq (h : s.Stacked active) (hmemory : t.memory = s.memory)
    (hcurrent : t.current = s.current) : t.Stacked active := by
  constructor
  · rw [hmemory, h.holding]
  · rw [hmemory]
    exact h.allocated
  · rw [hmemory, hcurrent]
    exact h.current

/-- An assignment leaves the stack as it is. -/
theorem Stacked.assigned (h : s.Stacked active) (name : String) (v : Value) :
    Stacked { s with memory := s.memory.insert s.current name v } active := by
  constructor
  · exact h.holding
  · intro record hrecord
    exact Nat.lt_of_lt_of_eq (h.allocated record hrecord) Memory.size_insert.symm
  · exact Nat.lt_of_lt_of_eq h.current Memory.size_insert.symm

/-- A step that leaves the memory and the current record alone. -/
theorem Stacked.undisturbed (h : s.Stacked active) (hmemory : t.memory = s.memory)
    (hcurrent : t.current = s.current) : Undisturbed False active s t := by
  refine ⟨h.of_eq hmemory hcurrent, ⟨?_, ?_⟩, fun _ => hcurrent, False.elim⟩
  · exact Nat.le_of_eq (congrArg (Array.size ·.records) hmemory.symm)
  · intro record _ _
    rw [hmemory]

/-- A halt after an expression, with the stack as it was. -/
theorem Undisturbed.halted (h : Undisturbed called active s t) : Interrupted none active s t := by
  refine ⟨⟨#[], ?_⟩, h.keeps⟩
  rw [Array.append_empty]
  exact h.stacked

end Session

namespace Evaluation

open Node Session

variable {α β : Type}

/-! ## Expressions

`Quiet` is for what does not touch the memory, `Isolated` for what may call. -/

/-- The evaluation does nothing to the memory and to which record is current. -/
def Quiet (x : Evaluation α) : Prop :=
  ∀ s, Leads x s (fun _ t => t.memory = s.memory ∧ t.current = s.current)
    fun _ t => t.memory = s.memory ∧ t.current = s.current

/-- The evaluation leaves the stack and its records as they were; `called` says whether there is a
call in it. -/
def Isolated (x : Evaluation α) (called : Prop) : Prop :=
  ∀ s active, s.Stacked active →
    Leads x s (fun _ t => Undisturbed called active s t) fun _ t => Interrupted none active s t

variable {called called' : Prop}

theorem Quiet.pure {a : α} : Quiet (Pure.pure a) := fun _ => Leads.pure ⟨rfl, rfl⟩

theorem Quiet.throw {e : Halt} : Quiet (throw e : Evaluation α) := fun _ => Leads.throw ⟨rfl, rfl⟩

theorem Quiet.fault {line : Nat} {cause : Cause} : Quiet (fault line cause : Evaluation α) :=
  Quiet.throw

theorem Quiet.bind {x : Evaluation α} {f : α → Evaluation β} (hx : Quiet x)
    (hf : ∀ a, Quiet (f a)) : Quiet (x >>= f) := by
  intro s
  refine Leads.bind (hx s) fun a t ht => ?_
  have hrest := hf a t
  rw [ht.1, ht.2] at hrest
  exact hrest

theorem Quiet.get_bind {f : Session → Evaluation α} (h : ∀ s, Quiet (f s)) :
    Quiet (get >>= f) :=
  fun s => Leads.get_bind (h s s)

/-- What is quiet calls nothing and disturbs nothing. -/
theorem Quiet.isolated {x : Evaluation α} (h : Quiet x) : Isolated x False := by
  intro s active hs
  refine Leads.mono (h s) ?_ ?_
  · exact fun _ t ht => hs.undisturbed ht.1 ht.2
  · exact fun _ t ht => (hs.undisturbed ht.1 ht.2).halted

/-- A halt is none of the matter of calls. -/
theorem Isolated.throw {e : Halt} : Isolated (throw e : Evaluation α) called :=
  fun _ _ hs => Leads.throw (hs.undisturbed rfl rfl).halted

/-- Whether there was a call may be said in equivalent words, which is needed where `called ∨
False` comes out of a composition. -/
theorem Isolated.congr {x : Evaluation α} (hx : Isolated x called) (h : called ↔ called') :
    Isolated x called' := propext h ▸ hx

/-- One expression after another: there was a call if there was one in either. -/
theorem Isolated.bind {x : Evaluation α} {f : α → Evaluation β} (hx : Isolated x called)
    (hf : ∀ a, Isolated (f a) called') : Isolated (x >>= f) (called ∨ called') := by
  intro s active hs
  refine Leads.bind (hx s active hs) fun a t ht => ?_
  refine Leads.mono (hf a t active ht.stacked) ?_ ?_
  · exact fun _ u hu => ht.trans hu
  · exact fun _ u hu => ht.interrupted hu

/-! ### What does not touch the memory

Reports, look-ups and the streams. -/

theorem quiet_report {e : Event} : Quiet (report e) := fun _ => ⟨rfl, rfl⟩

theorem quiet_lookUp {name : String} {line : Nat} : Quiet (lookUp name line) := by
  unfold lookUp
  split
  · exact Quiet.pure
  · refine Quiet.get_bind fun s => ?_
    split
    · exact Quiet.pure
    · exact Quiet.fault

/-- A change of the session that leaves the memory and the current record. -/
theorem Quiet.modifyGet {g : Session → α × Session}
    (h : ∀ s, (g s).2.memory = s.memory ∧ (g s).2.current = s.current) :
    Quiet (MonadStateOf.modifyGet g) := h

/-- Output goes to the output of the session. -/
theorem quiet_writeLine {line : Nat} {text : String} : Quiet (writeLine line text) := by
  refine (Quiet.modifyGet fun _ => ⟨rfl, rfl⟩).bind fun accepted => ?_
  split
  · exact Quiet.pure
  · exact Quiet.fault

theorem quiet_flush {line : Nat} : Quiet (flush line) := by
  refine Quiet.get_bind fun s => ?_
  split
  · exact Quiet.fault
  · exact Quiet.pure

/-- Input comes from the input of the session. -/
theorem quiet_nextLine {line : Nat} {name : String} : Quiet (nextLine line name) := by
  intro s
  refine Leads.get_bind ?_
  obtain ⟨bytes, rest⟩ := splitLine s.input
  dsimp only
  split
  · exact Quiet.fault s
  · have hset : Leads (set { s with input := rest }) s
        (fun _ t => t.memory = s.memory ∧ t.current = s.current)
        (fun _ t => t.memory = s.memory ∧ t.current = s.current) := Leads.set ⟨rfl, rfl⟩
    refine Leads.bind hset fun _ t ht => ?_
    rw [← ht.1, ← ht.2]
    split
    · exact Quiet.pure t
    · exact Quiet.fault t

/-! ## Statements

`Framed` is for whole statements, `Steady` for those parts of them that cannot return. -/

/-- Run with the top of the stack as the current record, the evaluation changes no other and leaves
the stack as it was. -/
def Steady (x : Evaluation α) : Prop :=
  ∀ s active, s.Stacked active → active.back? = some s.current →
    Leads x s (fun _ t => Settled active s t) fun _ t => Interrupted (some s.current) active s t

/-- How a statement leaves the session. -/
inductive Completed (active : Array Handle) (s : Session) : Completion → Session → Prop where
  | normal {t : Session} (h : Settled active s t) : Completed active s .normal t
  | returned {v : Value} {t : Session} (h : Popped active s t) :
      Completed active s (.returned v) t

/-- Run with the top of the stack as the current record, the evaluation changes no other, and pops it
if it returns. -/
def Framed (x : Evaluation Completion) : Prop :=
  ∀ s active, s.Stacked active → active.back? = some s.current →
    Leads x s (Completed active s) fun _ t => Interrupted (some s.current) active s t

/-- Where the top of the stack is the current record before an expression, it is so after it. -/
theorem Isolated.steady {x : Evaluation α} (h : Isolated x called) : Steady x := by
  intro s active hs htop
  refine Leads.mono (h s active hs) ?_ ?_
  · exact fun _ t ht => ht.settled htop
  · exact fun _ t ht => ⟨ht.stacked, ht.keeps.weaken⟩

theorem Quiet.steady {x : Evaluation α} (h : Quiet x) : Steady x := h.isolated.steady

theorem Steady.bind {x : Evaluation α} {f : α → Evaluation β} (hx : Steady x)
    (hf : ∀ a, Steady (f a)) : Steady (x >>= f) := by
  intro s active hs htop
  refine Leads.bind (hx s active hs htop) fun a t ht => ?_
  refine Leads.mono (hf a t active ht.stacked (ht.top htop)) ?_ ?_
  · exact fun _ u hu => ht.trans hu
  · exact fun _ u hu => ht.interrupted hu

/-- What a statement does after a part of it, seen from before that part. -/
theorem Completed.of_settled {active : Array Handle} {s t u : Session} {c : Completion}
    (h : Settled active s t) (h' : Completed active t c u) : Completed active s c u := by
  cases h' with
  | normal h' => exact .normal (h.trans h')
  | returned h' => exact .returned (h.popped h')

theorem Steady.bind_framed {x : Evaluation α} {f : α → Evaluation Completion} (hx : Steady x)
    (hf : ∀ a, Framed (f a)) : Framed (x >>= f) := by
  intro s active hs htop
  refine Leads.bind (hx s active hs htop) fun a t ht => ?_
  refine Leads.mono (hf a t active ht.stacked (ht.top htop)) ?_ ?_
  · exact fun _ u hu => hu.of_settled ht
  · exact fun _ u hu => ht.interrupted hu

/-- The statement that does nothing and goes on. -/
theorem Framed.normal : Framed (Pure.pure .normal) :=
  fun _ _ hs _ => Leads.pure (.normal (.refl hs))

/-- What comes after a statement runs only if this ends normally. -/
theorem Framed.followed {x y : Evaluation Completion} (hx : Framed x) (hy : Framed y) :
    Framed (do
      match ← x with
      | .returned v => pure (.returned v)
      | _ => y) := by
  intro s active hs htop
  refine Leads.bind (hx s active hs htop) fun c t ht => ?_
  cases ht with
  | normal ht =>
    refine Leads.mono (hy t active ht.stacked (ht.top htop)) ?_ ?_
    · exact fun _ u hu => hu.of_settled ht
    · exact fun _ u hu => ht.interrupted hu
  | returned ht => exact Leads.pure (.returned ht)

/-! ### Statements one by one -/

/-- An assignment changes the current record and no other. -/
theorem steady_assign {name : String} {value : Value} : Steady (assign name value) := by
  intro s active hs htop
  refine Leads.modify ⟨hs.assigned name value, ⟨?_, ?_⟩, rfl⟩
  · exact Nat.le_of_eq Memory.size_insert.symm
  · intro record _ hne
    have hne' : s.current ≠ record := fun heq => hne (congrArg some heq)
    show (s.memory.records.modify s.current _)[record]? = _
    rw [Array.getElem?_modify, if_neg hne']

/-- Returning pops the stack and leaves every record as it is. -/
theorem leads_resume {s : Session} {active : Array Handle} {halt : Halt → Session → Prop}
    (hs : s.Stacked active) :
    Leads resume s (fun _ t => t.Stacked active.pop ∧ Keeps none s t ∧ Resumed active.pop s t)
      halt := by
  obtain ⟨⟨records, holding⟩, current, input, output, log⟩ := s
  obtain ⟨rfl, hallocated, -⟩ := hs
  have hpop : ∀ record ∈ active.pop, record < records.size := by
    intro record hrecord
    rw [Array.mem_def, Array.toList_pop] at hrecord
    exact hallocated record (Array.mem_def.2 (List.dropLast_subset _ hrecord))
  refine Leads.modify ?_
  -- the record below becomes the current one; where there is none a record is made
  unfold Resumed
  cases hback : active.pop.back? with
  | some top =>
    simp only [Memory.restore, hback]
    exact ⟨⟨rfl, hpop, hpop top (Array.mem_of_back? hback)⟩, .of_eq rfl, trivial⟩
  | none =>
    simp only [Memory.restore, hback]
    refine ⟨⟨rfl, fun record hrecord => ?_, ?_⟩, .of_push rfl, Nat.le_refl _, ?_⟩
    · exact Nat.lt_of_lt_of_le (hpop record hrecord) (by simp)
    · simp
    · simp

/-- Entering pushes a new record, which is current. -/
theorem leads_enter {s : Session} {active : Array Handle} {name : String}
    {halt : Halt → Session → Prop} (hs : s.Stacked active) :
    Leads (enter name) s (fun _ t => t.Stacked (active.push s.memory.records.size) ∧
      Keeps none s t ∧ t.current = s.memory.records.size) halt := by
  obtain ⟨⟨records, holding⟩, current, input, output, log⟩ := s
  obtain ⟨rfl, hallocated, -⟩ := hs
  refine Leads.modify ⟨⟨rfl, fun record hrecord => ?_, ?_⟩, .of_push rfl, rfl⟩
  · show record < (records.push _).size
    rw [Array.size_push]
    rcases Array.mem_push.1 hrecord with hold | rfl
    · exact Nat.lt_succ_of_lt (hallocated record hold)
    · exact Nat.lt_succ_self _
  · show records.size < (records.push _).size
    rw [Array.size_push]
    exact Nat.lt_succ_self _

/-! ## Calls -/

/-- **Push and pop balance.**  What runs between entering a function and going on after it has the new
record as its own; however it ends, the stack of the caller is as it was. -/
theorem isolated_frame {name : String} {given : Evaluation Unit} {body : Evaluation Completion}
    (hgiven : Steady given) (hbody : Framed body) :
    Isolated (do
      enter name
      given
      match ← body with
      | .returned v => pure v
      | _ => do
        resume
        pure Value.none) True := by
  intro s active hs
  refine Leads.bind (leads_enter hs) fun _ t ht => ?_
  have hx : Framed (given >>= fun _ => body) := hgiven.bind_framed fun _ => hbody
  rw [← bind_assoc]
  obtain ⟨hstacked, hkeeps, hcurrent⟩ := ht
  have htop : (active.push s.memory.records.size).back? = some t.current := by
    rw [Array.back?_push, hcurrent]
  -- what the callee changes, the caller does not have
  have hnew : ∀ {u}, Keeps (some t.current) t u → Keeps none s u :=
    fun h => hkeeps.of_new h (Nat.le_of_eq hcurrent.symm)
  refine Leads.bind (Leads.mono (hx t _ hstacked htop) (fun _ _ hu => hu) ?_) fun c u hu => ?_
  · intro _ u hu
    obtain ⟨⟨more, hmore⟩, hchanged⟩ := hu
    refine ⟨⟨#[s.memory.records.size] ++ more, ?_⟩, hnew hchanged⟩
    rw [← Array.append_assoc, ← Array.push_eq_append]
    exact hmore
  · cases hu with
    | returned hu =>
      obtain ⟨hpopped, hchanged, hresumed⟩ := hu
      rw [Array.pop_push] at hpopped hresumed
      exact Leads.pure ⟨hpopped, hnew hchanged, fun hno => absurd trivial hno,
        fun _ => .of_keeps hkeeps hresumed⟩
    | normal hu =>
      refine Leads.bind (leads_resume hu.stacked) fun _ v hv => Leads.pure ?_
      obtain ⟨hpopped, hchanged, hresumed⟩ := hv
      rw [Array.pop_push] at hpopped hresumed
      have hall := hnew hu.keeps
      exact ⟨hpopped, hall.trans hchanged, fun hno => absurd trivial hno,
        fun _ => .of_keeps hall hresumed⟩

/-- A `return` leaves with what the session is after the stack has been popped. -/
theorem framed_return {v : Value} :
    Framed (do
      resume
      report (.returning v)
      pure (.returned v)) := by
  intro s active hs htop
  refine Leads.bind (leads_resume hs) fun _ t ht => ?_
  obtain ⟨hstacked, hkeeps, hresumed⟩ := ht
  show Completed active s (.returned v) { t with log := t.log.add (.returning v) }
  have hchanged : Keeps (some s.current) s t := hkeeps.weaken
  exact .returned ⟨⟨hstacked.holding, hstacked.allocated, hstacked.current⟩,
    ⟨hchanged.size, hchanged.same⟩, hresumed⟩

/-! ## Programs -/

/-- **Isolation is a judgement.**  Which functions are active does not matter, but whether there is a
call in an expression does. -/
def isolation (p : Program) : Judgement p where
  within _ _ := True
  asks _ called _ d := Isolated d.held called
  does _ _ d := Steady d.held
  ends _ d := Framed d.held
  child _ _ := trivial
  declared _ _ := trivial
  asks_done := Quiet.pure.isolated
  asks_halt _ := Isolated.throw
  asks_bind hd hg := by
    rw [Dialogue.held_bind]
    exact hd.bind hg
  asks_visit := by
    intros
    rw [Dialogue.held_mark]
    exact Quiet.pure.isolated
  asks_lookUp := by
    intros
    rw [Dialogue.held_lookUp]
    exact quiet_lookUp.isolated
  asks_flush := by
    intros
    rw [Dialogue.held_flush]
    exact quiet_flush.isolated
  does_of_asks hd := hd.steady
  does_bind hd hg := by
    rw [Dialogue.held_bind]
    exact hd.bind hg
  does_assign _ _ := by
    rw [Dialogue.held_assign]
    exact steady_assign
  does_parameter _ _ _ := by
    rw [Dialogue.held_assign]
    exact steady_assign
  does_write := by
    intros
    rw [Dialogue.held_write]
    exact quiet_writeLine.steady
  does_read := by
    intros
    rw [Dialogue.held_read]
    exact quiet_nextLine.steady
  ends_done := Framed.normal
  ends_bind hd hg := by
    rw [Dialogue.held_bind]
    exact hd.bind_framed hg
  ends_followed hd hd' := (congrArg Framed Dialogue.held_followed).mpr (hd.followed hd')
  ends_returning := by
    intros
    simp only [Dialogue.held_bind, Dialogue.held_resume, Dialogue.held_report, Dialogue.pure_eq,
      Dialogue.held_done]
    exact framed_return
  asks_frame _ hgiven hbody _ := by
    rw [Dialogue.held_frame]
    refine (Isolated.bind quiet_report.isolated fun _ => ?_).congr (iff_of_eq (false_or _))
    exact isolated_frame hgiven hbody

variable {p : Program} {n : Nat} {t : Node}

/-- **Every statement is framed**, and so is every list of statements. -/
theorem framed_evaluate (hp : p.WellFormed) (h : IsStatementOrList t) : Framed (evaluate p n t) := by
  have hframed : Framed (Dialogue.evaluate p n t).held :=
    ((isolation p).level hp n).statement t entryPoint [] h trivial
  rwa [Dialogue.held_evaluate] at hframed

/-- **Every expression is isolated**, and a comparison too, if it is evaluated like an expression. -/
theorem isolated_evaluate (hp : p.WellFormed) (h : IsCondition t) :
    Isolated (evaluate p n t) (Calls t) := by
  have hisolated : Isolated (Dialogue.evaluate p n t).held (Calls t) :=
    (isolation p).asks_evaluate hp n entryPoint [] h trivial
  rwa [Dialogue.held_evaluate] at hisolated

/-- A condition is isolated where it is decided. -/
theorem isolated_holds (hp : p.WellFormed) (h : IsCondition t) :
    Isolated (holds (evaluate p n) t) (Calls t) := by
  have hisolated : Isolated (Dialogue.holds (Dialogue.evaluate p n) t).held (Calls t) :=
    (isolation p).asks_condition hp n entryPoint [] h trivial
  rw [Dialogue.held_holds] at hisolated
  simpa only [Dialogue.held_evaluate] using hisolated

/-- A run disturbs no record, whatever it is called from. -/
theorem isolated_run (hp : p.WellFormed) (fuel : Nat) : Isolated (run p fuel) True := by
  have hisolated : Isolated (Dialogue.run p fuel).held True := (isolation p).asks_run hp fuel
  rwa [Dialogue.held_run] at hisolated

end Evaluation
end Scriptlet
