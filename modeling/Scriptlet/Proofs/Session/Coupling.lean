import Scriptlet.Proofs.Session.Logic

/-!
Two evaluations side by side.

`Relates excused R x y post` compares an evaluation `x` with an evaluation `y`.  They start in two
sessions that have the same input and the same output, with stores (memory and current record) that
are related by `R`.  Then they show the same: both have the same result, or both halt for the same
reason, with the same input and the same output; and after a result the stores are related by `post`.
The first may halt for a reason that is excused, and then nothing is said of the second.

There is one rule for each way of putting evaluations together, and one lemma for each part of an
evaluation that does not touch the store itself.  What a relation of stores has to be like is settled
only where variables are looked up and assigned and where records are handed out.
-/

namespace Scriptlet

/-- The memory and the current record. -/
abbrev Store := Memory × Handle

namespace Session

/-- The store of a session. -/
def store (s : Session) : Store := (s.memory, s.current)

/-- Both sessions have the same input before them, and the same output. -/
structure SameStreams (s t : Session) : Prop where
  input : t.input = s.input
  output : t.output = s.output

end Session

namespace Evaluation

open Node

variable {α β : Type}

/-- Run in `s` and in `t`, the evaluations show the same. -/
def Coupled (excused : Halt → Prop) (x y : Evaluation α) (s t : Session)
    (post : α → Store → Store → Prop) : Prop :=
  match x s with
  | .ok a s' => ∃ t', y t = .ok a t' ∧ s'.SameStreams t' ∧ post a s'.store t'.store
  | .error e s' => excused e ∨ ∃ t', y t = .error e t' ∧ s'.SameStreams t'

/-- Run in sessions with the same streams and with stores that are related by `R`, the evaluations
show the same. -/
def Relates (excused : Halt → Prop) (R : Store → Store → Prop) (x y : Evaluation α)
    (post : α → Store → Store → Prop) : Prop :=
  ∀ s t, s.SameStreams t → R s.store t.store → Coupled excused x y s t post

/-- The evaluations show the same and leave the stores related as they were. -/
abbrev Keeping (excused : Halt → Prop) (R : Store → Store → Prop) (x y : Evaluation α) : Prop :=
  Relates excused R x y fun _ => R

/-- How stores are related after a statement that may return: by `R'` if it does, by `R` if not. -/
def unlessReturned (R R' : Store → Store → Prop) : Completion → Store → Store → Prop
  | .returned _ => R'
  | _ => R

variable {excused : Halt → Prop} {R : Store → Store → Prop}

/-! ## Rules -/

section Rules

variable {x y : Evaluation α} {post : α → Store → Store → Prop}

theorem Relates.pure {a : α} (h : ∀ σ τ, R σ τ → post a σ τ) :
    Relates excused R (Pure.pure a) (Pure.pure a) post :=
  fun _ t hstreams hR => ⟨t, rfl, hstreams, h _ _ hR⟩

theorem Relates.throw {e : Halt} : Relates excused R (throw e : Evaluation α) (throw e) post :=
  fun _ t hstreams _ => Or.inr ⟨t, rfl, hstreams⟩

/-- A halt that is excused. -/
theorem Relates.excuse {e : Halt} (h : excused e) :
    Relates excused R (MonadExcept.throw e) y post :=
  fun _ _ _ _ => Or.inl h

/-- One evaluation after another, given what the first leaves of the stores. -/
theorem Relates.bind {f g : α → Evaluation β} {post' : β → Store → Store → Prop}
    (hx : Relates excused R x y post) (hf : ∀ a, Relates excused (post a) (f a) (g a) post') :
    Relates excused R (x >>= f) (y >>= g) post' := by
  intro s t hstreams hR
  have hfirst := hx s t hstreams hR
  unfold Coupled at hfirst ⊢
  simp only [Bind.bind, EStateM.bind]
  cases hxs : x s with
  | ok a s' =>
    rw [hxs] at hfirst
    obtain ⟨t', hyt, hstreams', hpost⟩ := hfirst
    rw [hyt]
    exact hf a s' t' hstreams' hpost
  | error e s' =>
    rw [hxs] at hfirst
    -- a first part that is excused excuses the whole
    rcases hfirst with hexcused | ⟨t', hyt, hstreams'⟩
    · exact Or.inl hexcused
    · rw [hyt]
      exact Or.inr ⟨t', rfl, hstreams'⟩

/-- Looking at the sessions. -/
theorem Relates.get_bind {f g : Session → Evaluation α}
    (h : ∀ s t, s.SameStreams t → R s.store t.store → Relates excused R (f s) (g t) post) :
    Relates excused R (get >>= f) (get >>= g) post :=
  fun s t hstreams hR => h s t hstreams hR s t hstreams hR

/-- A change of the stores. -/
theorem Relates.modify {change change' : Session → Session} {R' : Store → Store → Prop}
    (hstreams : ∀ s t, s.SameStreams t → (change s).SameStreams (change' t))
    (h : ∀ s t, R s.store t.store → R' (change s).store (change' t).store) :
    Relates excused R (modify change) (modify change') fun _ => R' :=
  fun s t hsame hR => ⟨change' t, rfl, hstreams s t hsame, h s t hR⟩

/-- Sessions that replace those at hand. -/
theorem Relates.set {s t : Session} {R' : Store → Store → Prop} (hstreams : s.SameStreams t)
    (hR' : R' s.store t.store) :
    Relates excused R (set s : Evaluation PUnit) (set t) fun _ => R' :=
  fun _ _ _ _ => ⟨t, rfl, hstreams, hR'⟩

/-- A result that is read off the sessions together with a change of them. -/
theorem Relates.modifyGet {change change' : Session → α × Session}
    (hresult : ∀ s t, s.SameStreams t → (change' t).1 = (change s).1)
    (hstreams : ∀ s t, s.SameStreams t → (change s).2.SameStreams (change' t).2)
    (h : ∀ s t, R s.store t.store → R (change s).2.store (change' t).2.store) :
    Keeping excused R (modifyGet change) (modifyGet change') :=
  fun s t hsame hR =>
    ⟨(change' t).2, congrArg (EStateM.Result.ok · (change' t).2) (hresult s t hsame),
      hstreams s t hsame, h s t hR⟩

end Rules

/-- A statement, and what comes after it if it does not return. -/
theorem relates_followed {x y z w : Evaluation Completion} {R' : Store → Store → Prop}
    (hx : Relates excused R x y (unlessReturned R R'))
    (hz : Relates excused R z w (unlessReturned R R')) :
    Relates excused R
      (do
        match ← x with
        | .returned v => pure (.returned v)
        | _ => z)
      (do
        match ← y with
        | .returned v => pure (.returned v)
        | _ => w) (unlessReturned R R') := by
  refine hx.bind fun c => ?_
  cases c with
  | returned v => exact .pure fun _ _ hR' => hR'
  | normal => exact hz
  | value v => exact hz

/-! ## What does not touch the store

Reports and streams, which are the same for every relation of stores. -/

/-- A report is in the log, which is compared with nothing; so the events need not be the same. -/
theorem keeping_report {e e' : Event} : Keeping excused R (report e) (report e') :=
  .modify (fun _ _ h => ⟨h.input, h.output⟩) fun _ _ hR => hR

theorem keeping_writeLine {line : Nat} {text : String} :
    Keeping excused R (writeLine line text) (writeLine line text) := by
  refine Relates.bind (.modifyGet ?_ ?_ fun _ _ hR => hR) fun accepted => ?_
  · intro s t h
    dsimp only
    rw [h.output]
  · intro s t h
    refine ⟨h.input, ?_⟩
    dsimp only
    rw [h.output]
  · split
    · exact .pure fun _ _ hR => hR
    · exact .throw

theorem keeping_flush {line : Nat} : Keeping excused R (flush line) (flush line) := by
  refine .get_bind fun s t h _ => ?_
  rw [h.output]
  split
  · exact .throw
  · exact .pure fun _ _ hR => hR

theorem keeping_nextLine {line : Nat} {name : String} :
    Keeping excused R (nextLine line name) (nextLine line name) := by
  refine .get_bind fun s t h hR => ?_
  rw [h.input]
  obtain ⟨bytes, rest⟩ := splitLine s.input
  dsimp only
  split
  · exact .throw
  · refine Relates.bind (.set ⟨rfl, h.output⟩ hR) fun _ => ?_
    split
    · exact .pure fun _ _ hR => hR
    · exact .throw

end Evaluation
end Scriptlet
