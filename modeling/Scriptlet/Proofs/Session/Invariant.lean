import Scriptlet.Proofs.Session.Parallel
import Scriptlet.Proofs.Tree.Origin

/-!
Invariants of a run, and evaluators that look at them.

A run is a sequence of small operations on a session, and a property of sessions that each of them
keeps is one of every session that the run comes to.  `Invariant V I` says so of a property `I d`
which may depend on the number `d` of active functions, where something is known of values (`V`) at
the same time: the current record of a function is the top of the stack, no text in a record reads as
a number.

That a run comes to no other sessions is more than that it ends in none, and it is nothing that
`evaluate` shows.  So it is put as a statement about another evaluator.  An evaluator with a guard
does what `evaluate` does, but looks at the session before each node, and at what it has come to
behind it, and halts where the invariant does not hold; a halt of this kind is one that no run has.
`Guards` says what such an evaluator may do: where the invariant holds it does what its level does.
Then it is `evaluate`, on every node and in every run (`Guards.start`), which says that the guard was
never needed, however deep the calls are and however the run ends.

Both evaluators are in the same session all the time (`Common`), so this is the comparison of
`Parallel` with the least there can be between two sessions, and the invariant on top.  The induction
over the levels, and the cases for the forms of nodes, are those of that module.
-/

namespace Scriptlet

/-- Every literal in the tree is a value with `V`. -/
def Node.LiteralsIn (V : Value → Prop) (t : Node) : Prop :=
  t.Every fun node => ∀ s, node.label = .text s → V (.text s)

namespace Evaluation

open Node

/-- A property of sessions, for any number of active functions, that every operation of a session
keeps, where `V` is known of values.  Variables are only looked up and assigned while a function is
active. -/
structure Invariant (V : Value → Prop) (I : Nat → Session → Prop) : Prop where
  values : Admits V
  line : ∀ {d s text}, I d s → textOfBytes? (splitLine s.input).1 = some text →
    V (.ofText (lineContent text))
  advanced : ∀ {d s}, I d s → I d { s with input := (splitLine s.input).2 }
  written : ∀ {d s} bytes, I d s → I d { s with output := (s.output.write bytes).2 }
  logged : ∀ {d s e}, e.All V → I d s → I d { s with log := s.log.add e }
  stored : ∀ {d s name v}, I (d + 1) s → s.memory.find? s.current name = some v → V v
  assigned : ∀ {d s v} name, V v → I (d + 1) s →
    I (d + 1) { s with memory := s.memory.insert s.current name v }
  entered : ∀ {d s} name, I d s → I (d + 1) (s.handOut (·.enter name))
  resumed : ∀ {d s}, I (d + 1) s → I d (s.handOut Memory.restore)

variable {α : Type} {V : Value → Prop} {I : Nat → Session → Prop} {d : Nat} {s : Session}

/-! ## As a comparison of evaluations -/

/-- Both are in one session, of which the invariant holds. -/
def Common (I : Nat → Session → Prop) (d : Nat) (s t : Session) : Prop := s = t ∧ I d s

/-- Both halt for one reason in one session, of which the invariant holds for some number of active
functions: a halt does not go back to the callers. -/
def together (I : Nat → Session → Prop) : Terms Halt Halt Session Session where
  excused _ := False
  excused' _ := False
  matching e e' s t := e = e' ∧ s = t ∧ ∃ d, I d s

theorem Invariant.parallel (h : Invariant V I) : Parallel (together I) Eq V (Common I) where
  values := h.values
  halted := by
    rintro d s _ e e' he ⟨rfl, hs⟩
    exact ⟨he.eq, rfl, d, hs⟩
  input hs := congrArg Session.input hs.1
  line hs := h.line hs.2
  advanced := by
    rintro d s _ ⟨rfl, hs⟩
    exact ⟨rfl, h.advanced hs⟩
  output := by
    rintro d s _ ⟨rfl, -⟩
    exact ⟨rfl, rfl⟩
  written := by
    rintro d s _ bytes ⟨rfl, hs⟩
    exact ⟨rfl, h.written bytes hs⟩
  logged := by
    rintro d s _ e he ⟨rfl, hs⟩
    exact ⟨rfl, h.logged he hs⟩
  found := by
    rintro d s _ name ⟨rfl, -⟩
    rfl
  stored hs := h.stored hs.2
  assigned := by
    rintro d s _ v name hv ⟨rfl, hs⟩
    exact ⟨rfl, h.assigned name hv hs⟩
  entered := by
    rintro d s _ name ⟨rfl, hs⟩
    exact ⟨rfl, h.entered name hs⟩
  resumed := by
    rintro d s _ ⟨rfl, hs⟩
    exact ⟨rfl, h.resumed hs⟩

/-- Nothing is excused, so both have the same fuel. -/
theorem Fuelled.eq_of_together {n m : Nat} (h : Fuelled (together I) n m) : n = m :=
  h.resolve_right fun h => h.elim And.right And.right

/-- Two evaluations that go the same way in one session are one evaluation there. -/
theorem eq_of_simulates {x y : Evaluation α} {Q : α → Session → Session → Prop}
    {ok : α → Session → Prop} (h : Simulates (together I) (Common I d) x y Eq Q)
    (hQ : ∀ a t u, Q a t u → t = u ∧ ok a t) (hs : I d s) :
    x s = y s ∧ Leads y s ok fun _ t => ∃ d, I d t := by
  unfold Leads
  rcases (h s s ⟨rfl, hs⟩).cases (fun _ => id) (fun _ => id) with
    ⟨a, t, b, u, hx, hy, rfl, hafter⟩ | ⟨e, t, e', u, hx, hy, rfl, rfl, hhalt⟩
  · obtain ⟨rfl, hok⟩ := hQ a t u hafter
    rw [hx, hy]
    exact ⟨rfl, hok⟩
  · rw [hx, hy]
    exact ⟨rfl, hhalt⟩

/-! ## Guards

An evaluator that halts where something is not the case is the evaluator itself if it always is. -/

/-- The tree beside itself, where its literals are values with `V`. -/
def Itself (V : Value → Prop) (t u : Node) : Prop := t = u ∧ t.LiteralsIn V

theorem Itself.resembles {t u : Node} (h : Itself V t u) : Resembles Eq V (Itself V) t u := by
  obtain ⟨rfl, hliterals⟩ := h
  refine ⟨rfl, hliterals.here, rfl, ?_⟩
  exact List.forall₂_same.2 fun child hchild => ⟨rfl, hliterals.children child hchild⟩

/-- What an evaluator with a guard does on top of a level: nothing, where the invariant holds before
the node, and where it holds behind it if the level ends there. -/
structure Guards (p : Program) (V : Value → Prop) (I : Nat → Session → Prop)
    (eval : Nat → Evaluator) : Prop where
  zero : ∀ t, eval 0 t = throw .outOfFuel
  succ : ∀ {n t d s}, I (d + 1) s →
    Leads (step p n (eval n) t) s (fun c u => c.All V ∧ ∃ d, I d u) (fun _ _ => True) →
    eval (n + 1) t s = step p n (eval n) t s

variable {p : Program} {eval : Nat → Evaluator} {n : Nat} {t : Node}

theorem sameFunctions_itself (h : p.root.LiteralsIn V) : SameFunctions (Itself V) p p :=
  sameFunctions_of_mem fun function hmem => ⟨rfl, h.children function hmem⟩

/-- `evaluate` has no guard, and is an evaluator of this kind for every invariant. -/
theorem guards_evaluate : Guards p V I (evaluate p) := ⟨fun _ => rfl, fun _ _ => rfl⟩

/-- The guard lets through what the level below it comes to. -/
theorem Guards.of_step (hg : Guards p V I eval) {Q : Completion → Session → Session → Prop}
    (hQ : ∀ c t u, Q c t u → t = u ∧ c.All V ∧ ∃ d, I d t)
    (h : Simulates (together I) (Common I (d + 1)) (step p n (eval n) t) (step p n (evaluate p n) t)
      Eq Q) :
    Simulates (together I) (Common I (d + 1)) (eval (n + 1) t) (evaluate p (n + 1) t) Eq Q := by
  rintro s _ ⟨rfl, hs⟩
  obtain ⟨heq, hleads⟩ := eq_of_simulates h hQ hs
  have hthrough : eval (n + 1) t s = step p n (eval n) t s := by
    apply hg.succ hs
    unfold Leads
    rw [heq]
    exact hleads.mono (fun _ _ hok => hok) fun _ _ _ => trivial
  rw [hthrough]
  exact h s s ⟨rfl, hs⟩

/-- The invariant behind an expression. -/
theorem common_gives {W : α → Prop} (a : α) (t u : Session) (h : W a ∧ Common I d t u) :
    t = u ∧ W a ∧ ∃ d, I d t :=
  ⟨h.2.1, h.1, d, h.2.2⟩

/-- The invariant behind a statement, for as many active functions as there are then. -/
theorem common_unwound (c : Completion) (t u : Session)
    (h : c.All V ∧ unwound (Common I (d + 1)) (Common I d) c t u) :
    t = u ∧ c.All V ∧ ∃ d, I d t := by
  obtain ⟨hc, hafter⟩ := h
  cases c with
  | normal => exact ⟨hafter.1, hc, d + 1, hafter.2⟩
  | value v => exact ⟨hafter.1, hc, d + 1, hafter.2⟩
  | returned v => exact ⟨hafter.1, hc, d, hafter.2⟩

/-- **The guard is never needed**, on no expression and on no statement. -/
theorem Guards.below (hg : Guards p V I eval) (h : Invariant V I) (hp : p.WellFormed)
    (hroot : p.root.LiteralsIn V) (n : Nat) :
    Below (together I) Eq V (Common I) (Itself V) (eval n) (evaluate p n) := by
  have hfunctions := sameFunctions_itself hroot
  refine h.parallel.levels Itself.resembles hg.zero (fun _ => rfl) ?_ ?_ (Or.inl rfl)
  · rintro n m hb hnm t u d ht htu
    cases hnm.eq_of_together
    obtain rfl := htu.1
    refine hg.of_step common_gives (hb.expression_step h.parallel ?_ ht htu)
    exact fun name arguments line line' hline hv => hb.invoke h.parallel hp hfunctions hline hv
  · rintro n m hb hnm t u d ht htu
    cases hnm.eq_of_together
    obtain rfl := htu.1
    refine hg.of_step common_unwound ?_
    exact hb.statementOrList_step h.parallel Itself.resembles hnm ht htu

/-- Nor on a condition that is evaluated for its value. -/
theorem Guards.condition (hg : Guards p V I eval) (h : Invariant V I) (hp : p.WellFormed)
    (hroot : p.root.LiteralsIn V) (n : Nat) (ht : IsCondition t) (hliterals : t.LiteralsIn V) :
    Gives (together I) (Common I (d + 1)) (Completion.All V) (eval n t) (evaluate p n t) := by
  cases ht with
  | expression ht => exact (hg.below h hp hroot n).expression d ht ⟨rfl, hliterals⟩
  | comparison hleft hright =>
    cases n with
    | zero =>
      rw [hg.zero]
      exact h.parallel.outOfFuel
    | succ n =>
      refine hg.of_step common_gives ?_
      exact (hg.below h hp hroot n).comparison_step h.parallel hleft hright ⟨rfl, hliterals⟩

/-- **The guard is never needed** in a run, and the invariant holds behind it: after a success for no
active function, after a halt for some number of them. -/
theorem Guards.start (hg : Guards p V I eval) (h : Invariant V I) (hp : p.WellFormed)
    (hroot : p.root.LiteralsIn V) (n : Nat) (hs : I 0 s) :
    start p (eval n) s = run p n s ∧
      Leads (run p n) s (fun v t => V v ∧ I 0 t) fun _ t => ∃ d, I d t := by
  have hstart := (hg.below h hp hroot n).start h.parallel hp (sameFunctions_itself hroot)
  refine eq_of_simulates hstart ?_ hs
  exact fun v t u hv => ⟨hv.2.1, hv.1, hv.2.2⟩

end Evaluation
end Scriptlet
