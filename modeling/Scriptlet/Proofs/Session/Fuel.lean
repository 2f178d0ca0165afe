import Scriptlet.Proofs.Session.Parallel

/-!
Fuel does not matter, as long as there is enough of it.

An evaluation that has run out of fuel has come to nothing; any other does exactly the same with
more fuel, down to the log.  So what a program comes to in a session can be said without fuel
(`Ends`): it is what some run comes to that does not run out of fuel, and there is at most one such
thing.

That more fuel changes nothing is a case of two evaluations side by side: the same program on the same
tree in one session, and the first may run out of fuel.  Nothing has to be known of values, lines are
equal, and the relation of the two sessions is equality, so what there is to show of the operations of
a session is shown at once (`parallel_firstMayRunOut`).  The same with the second is needed for
programs that take more fuel than what they are compared with.

`Ends` is what statements about programs should be about, since nobody who writes a program gives it
fuel.
-/

namespace Scriptlet

open Node

namespace Evaluation

variable {α : Type} {x y z : Evaluation α}

/-- The first evaluation does the same as the second, unless its fuel runs out. -/
def UpToFuel (x y : Evaluation α) : Prop :=
  ∀ s, x s = y s ∨ ∃ t, x s = .error .outOfFuel t

/-! ## As a comparison of evaluations

One session for both, so the relation of sessions is equality. -/

/-- Two evaluations in one session; the first may run out of fuel. -/
def firstMayRunOut : Terms Halt Halt Session Session where
  excused e := e = .outOfFuel
  excused' _ := False
  matching e e' s t := e = e' ∧ s = t

/-- Two evaluations in one session; the second may run out of fuel. -/
def secondMayRunOut : Terms Halt Halt Session Session where
  excused _ := False
  excused' e := e = .outOfFuel
  matching e e' s t := e = e' ∧ s = t

theorem parallel_firstMayRunOut : Parallel firstMayRunOut Eq (fun _ => True) fun _ => Eq :=
  .eq fun h => ⟨h.eq, rfl⟩

theorem parallel_secondMayRunOut : Parallel secondMayRunOut Eq (fun _ => True) fun _ => Eq :=
  .eq fun h => ⟨h.eq, rfl⟩

theorem kept_firstMayRunOut_iff : Kept firstMayRunOut Eq x y ↔ UpToFuel x y := by
  have hpaired : ∀ a b : EStateM.Result Halt Session α,
      Paired firstMayRunOut Eq (fun _ => Eq) a b ↔ a = b ∨ ∃ t, a = .error .outOfFuel t := by
    intro a b
    cases a <;> cases b <;> simp [Paired, firstMayRunOut, or_comm]
  constructor
  · intro h s
    exact (hpaired _ _).1 (h s s rfl)
  · rintro h s _ rfl
    exact (hpaired _ _).2 (h s)

theorem kept_secondMayRunOut_iff : Kept secondMayRunOut Eq x y ↔ UpToFuel y x := by
  have hpaired : ∀ a b : EStateM.Result Halt Session α,
      Paired secondMayRunOut Eq (fun _ => Eq) a b ↔ b = a ∨ ∃ t, b = .error .outOfFuel t := by
    intro a b
    cases a <;> cases b <;> simp [Paired, secondMayRunOut, or_comm, eq_comm]
  constructor
  · intro h s
    exact (hpaired _ _).1 (h s s rfl)
  · rintro h s _ rfl
    exact (hpaired _ _).2 (h s)

/-! ## More fuel -/

variable {p : Program} {n m : Nat}

/-- A program with less fuel beside itself with more. -/
theorem below_of_le (hp : p.WellFormed) (h : n ≤ m) :
    Below firstMayRunOut Eq (fun _ => True) (fun _ => Eq) Eq (evaluate p n) (evaluate p m) :=
  parallel_firstMayRunOut.level hp resembles_eq sameFunctions_eq (Or.inr (Or.inl ⟨h, rfl⟩))

/-- More fuel for a run. -/
theorem upToFuel_run (hp : p.WellFormed) (h : n ≤ m) : UpToFuel (run p n) (run p m) :=
  kept_firstMayRunOut_iff.1
    ((below_of_le hp h).run parallel_firstMayRunOut hp sameFunctions_eq).kept

end Evaluation

namespace Program

open Evaluation

variable {p q : Program} {s t t' : Session} {outcome outcome' : Except Halt Value}

/-- Programs that run alike up to fuel. -/
theorem runIn_of_upToFuel {n m : Nat} (h : UpToFuel (run p n) (run q m))
    (hends : (p.runIn n s).1 ≠ .error .outOfFuel) : q.runIn m s = p.runIn n s := by
  unfold runIn at hends ⊢
  rcases h s with heq | ⟨t, ht⟩
  · rw [heq]
  · rw [ht] at hends
    exact absurd rfl hends

/-- Run in the session `s` with enough fuel, the program comes to the outcome and leaves the
session `t`. -/
def Ends (p : Program) (s : Session) (outcome : Except Halt Value) (t : Session) : Prop :=
  ∃ fuel, p.runIn fuel s = (outcome, t) ∧ outcome ≠ .error .outOfFuel

/-- The program comes to an outcome. -/
def Terminates (p : Program) (s : Session) : Prop := ∃ outcome t, p.Ends s outcome t

/-- With more fuel than is enough a run is the same. -/
theorem runIn_of_le (hp : p.WellFormed) {n m : Nat} (h : n ≤ m)
    (hends : (p.runIn n s).1 ≠ .error .outOfFuel) : p.runIn m s = p.runIn n s :=
  runIn_of_upToFuel (upToFuel_run hp h) hends

/-- A program comes to one outcome only. -/
theorem Ends.unique (hp : p.WellFormed) (h : p.Ends s outcome t) (h' : p.Ends s outcome' t') :
    outcome = outcome' ∧ t = t' := by
  obtain ⟨n, hn, hends⟩ := h
  obtain ⟨m, hm, hends'⟩ := h'
  have hsame : p.runIn n s = p.runIn m s := by
    rcases Nat.le_total n m with hle | hle
    · exact (runIn_of_le hp hle (by rw [hn]; exact hends)).symm
    · exact runIn_of_le hp hle (by rw [hm]; exact hends')
  rw [hn, hm] at hsame
  exact Prod.mk.inj hsame

end Program
end Scriptlet
