import Scriptlet.Proofs.Session.Isolation

/-!
What no evaluation takes away.

A variable that a record has, the record has for ever: an evaluation only gives variables values,
new ones or ones that there are, and a record that is no longer active is not given up.  And the
discipline is what it was, so a record that is shared stays shared.

This holds of every node, of whatever shape and with whatever record current, and however its
evaluation ends.  So it is not a matter of what programs there are, but of what can be asked of a
session at all.  An evaluation is a dialogue, and all that it does to its session are its requests,
one after another (`Dialogue.sessionAfter_held`).  Three of them touch the records: an assignment,
which adds a variable or changes one, and the two that hand out a record, which is a new one or an old
one (`Session.retains_answer`).  By induction on the requests nothing is ever lost.

The same lemma, that an evaluation is its requests, serves for what a variable is read as.  There the
claim is that a value stays as long as nobody rebinds the variable, here that it cannot be unbound at
all.

Main statements: `Evaluation.retains_evaluate`, and `Evaluation.retains_run` for runs.
-/

namespace Scriptlet

/-- A record is shared, and it is there. -/
structure Session.Shares (record : Handle) (s : Session) : Prop where
  holding : s.memory.holding = .shared record
  allocated : record < s.memory.records.size

/-- Every variable that a record has in `s` it has in `t`, perhaps with another value, and a record
that is shared in `s` is shared in `t`. -/
structure Session.Retains (s t : Session) : Prop where
  bound : ∀ record name, (s.memory.find? record name).isSome → (t.memory.find? record name).isSome
  shared : ∀ record, s.Shares record → t.Shares record

namespace Session

variable {s t u : Session}

theorem Retains.of_eq (h : t.memory = s.memory) : s.Retains t := by
  constructor
  · intro record name
    rw [h]
    exact id
  · rintro record ⟨hholding, hallocated⟩
    rw [← h] at hholding hallocated
    exact ⟨hholding, hallocated⟩

theorem Retains.trans (h : s.Retains t) (h' : t.Retains u) : s.Retains u :=
  ⟨fun record name => h'.bound record name ∘ h.bound record name,
    fun record => h'.shared record ∘ h.shared record⟩

/-- An assignment takes no variable away, in whichever record it is made. -/
theorem Retains.assigned (name : String) (v : Value) :
    s.Retains { s with memory := s.memory.insert s.current name v } := by
  constructor
  · intro record read hbound
    show ((s.memory.insert s.current name v).find? record read).isSome
    by_cases hcurrent : s.current < s.memory.records.size
    · rw [Memory.find?_insert hcurrent]
      split
      · rfl
      · exact hbound
    · -- there is no record to be changed
      rw [Memory.insert_of_size_le (Nat.le_of_not_lt hcurrent)]
      exact hbound
  · rintro record ⟨hholding, hallocated⟩
    exact ⟨hholding, Nat.lt_of_lt_of_eq hallocated Memory.size_insert.symm⟩

/-- Where all look-ups are as they were, no variable is lost; a memory with a stack has no record that
is shared. -/
theorem Retains.handedOut (hfind : ∀ record name, t.memory.find? record name = s.memory.find? record name)
    (hshared : ∀ record, s.memory.holding = .shared record → t.memory = s.memory) : s.Retains t := by
  constructor
  · intro record name hbound
    rw [hfind]
    exact hbound
  · intro record hshares
    exact (Retains.of_eq (hshared record hshares.holding)).shared record hshares

/-- A record that is handed out takes no variable away from another. -/
theorem Retains.entered (name : String) (ht : t.memory = (s.memory.enter name).memory) :
    s.Retains t := by
  apply Retains.handedOut
  · intro record read
    rw [ht, Memory.find?_enter]
  · intro record hholding
    rw [ht]
    obtain ⟨⟨records, holding⟩, current, input, output, log⟩ := s
    cases hholding
    rfl

theorem Retains.restored (ht : t.memory = s.memory.restore.memory) : s.Retains t := by
  apply Retains.handedOut
  · intro record read
    rw [ht, Memory.find?_restore]
  · intro record hholding
    rw [ht]
    obtain ⟨⟨records, holding⟩, current, input, output, log⟩ := s
    cases hholding
    rfl

end Session

/-! ## Requests, one after another -/

namespace Session

/-- The session after requests that are made one after another, each of them answered or refused. -/
def afterAll (s : Session) (qs : List Request) : Session :=
  qs.foldl (fun s q => q.answer.sessionAfter s) s

theorem afterAll_cons {s : Session} {q : Request} {qs : List Request} :
    s.afterAll (q :: qs) = (q.answer.sessionAfter s).afterAll qs := rfl

end Session

/-- **An evaluation is its requests**: nothing else is done to the session. -/
theorem Dialogue.sessionAfter_held {α : Type} (d : Dialogue α) (s : Session) :
    d.held.sessionAfter s = s.afterAll (d.transcript s) := by
  induction d generalizing s with
  | done a => rfl
  | halt e => rfl
  | ask q next ih =>
    show (q.answer >>= fun reply => (next reply).held).sessionAfter s = _
    rw [transcript, Session.afterAll_cons]
    unfold Evaluation.sessionAfter
    simp only [Bind.bind, EStateM.bind]
    cases hanswer : q.answer s with
    | ok reply t => exact ih reply t
    | error e t => rfl

/-- A request that does something to the records, or to which of them is current. -/
def Request.Touches : Request → Prop
  | assign _ _ => True
  | enter _ => True
  | resume => True
  | _ => False

/-- Any other request leaves them alone, also where it is refused. -/
theorem Request.quiet_answer {q : Request} (h : ¬ q.Touches) : Evaluation.Quiet q.answer := by
  cases q with
  | mark m => exact Evaluation.Quiet.pure
  | find name => exact Evaluation.Quiet.get_bind fun _ => Evaluation.Quiet.pure
  | report e => exact Evaluation.quiet_report
  | write node text => exact Evaluation.quiet_writeLine
  | read node name => exact Evaluation.quiet_nextLine
  | flush line => exact Evaluation.quiet_flush
  | assign name v => exact absurd trivial h
  | enter function => exact absurd trivial h
  | resume => exact absurd trivial h

/-! ## Nothing is lost -/

namespace Session

/-- **One request** takes no variable away, answered or refused. -/
theorem retains_answer (s : Session) (q : Request) : s.Retains (q.answer.sessionAfter s) := by
  by_cases htouches : q.Touches
  · cases q with
    | assign name v => exact .assigned name v
    | enter function => exact .entered function rfl
    | resume => exact .restored rfl
    | _ => cases htouches
  · exact .of_eq (Request.quiet_answer htouches s).sessionAfter.1

/-- Nor do any number of requests. -/
theorem retains_afterAll (s : Session) (qs : List Request) : s.Retains (s.afterAll qs) := by
  induction qs generalizing s with
  | nil => exact .of_eq rfl
  | cons q qs ih => exact (s.retains_answer q).trans (ih _)

end Session

namespace Evaluation

variable {p : Program}

/-- **Nothing is lost** by the evaluation of a node, whatever node it is. -/
theorem retains_evaluate (n : Nat) (node : Node) (s : Session) :
    s.Retains ((evaluate p n node).sessionAfter s) := by
  rw [← Dialogue.held_evaluate, Dialogue.sessionAfter_held]
  exact s.retains_afterAll _

/-- Nor is it by a run. -/
theorem retains_run (fuel : Nat) (s : Session) : s.Retains ((run p fuel).sessionAfter s) := by
  rw [← Dialogue.held_run, Dialogue.sessionAfter_held]
  exact s.retains_afterAll _

end Evaluation
end Scriptlet
