/-!
Two computations side by side.

`Simulates k P x y r Q` compares a computation `x` with a computation `y`.  Both change a state and
may halt; the states and the halts may be of different types.  Started in states that are related by
`P`, they end together, with results that are related by `r` and in states that are related by `Q`
(which may look at the result of `x`), or they halt together as the terms `k` ask for.  The terms
may excuse a halt of either, and then nothing is said of the other.

There is one rule for each way of putting computations together.  What is compared is left open: two
runs in different sessions, a run and what it is specified to do, two readings of different texts.

The rules are used along the two computations, which have the same form at the top: two sequences are
compared part by part (`bind`), two choices branch by branch.  A step that only one of them makes is
put in front of it (`modify_bind`).  Where the states have to be known to go on, because a branch
depends on them or because a halt says something of them, `get_bind_at` makes them known, and from
then on the comparison is at these two states; `of_related` leads back to it from a comparison at all
related states.

The relation before and the relation after need not be the same.  A step may take one to another, as
the return of a function does, and what is claimed after a statement may depend on its result.
-/

namespace Scriptlet

universe u

/-- How the halts of two computations are compared: those of either that are excused, and which of
the others match, in the states where they halt. -/
structure Terms (ε ε' σ τ : Type u) where
  excused : ε → Prop
  excused' : ε' → Prop
  matching : ε → ε' → σ → τ → Prop

variable {ε ε' σ τ α β γ δ : Type u}

/-- The two computations have ended together, or have halted as the terms ask for. -/
def Paired (k : Terms ε ε' σ τ) (r : α → β → Prop) (Q : α → σ → τ → Prop) :
    EStateM.Result ε σ α → EStateM.Result ε' τ β → Prop
  | .ok a s, .ok b t => r a b ∧ Q a s t
  | .error e s, .error e' t => k.excused e ∨ k.excused' e' ∨ k.matching e e' s t
  | .error e _, .ok _ _ => k.excused e
  | .ok _ _, .error e' _ => k.excused' e'

/-- Where no halt is excused, both computations have ended or both have halted. -/
theorem Paired.cases {k : Terms ε ε' σ τ} {r : α → β → Prop} {Q : α → σ → τ → Prop}
    {x : EStateM.Result ε σ α} {y : EStateM.Result ε' τ β} (h : Paired k r Q x y)
    (hx : ∀ e, ¬ k.excused e) (hy : ∀ e, ¬ k.excused' e) :
    (∃ a s b t, x = .ok a s ∧ y = .ok b t ∧ r a b ∧ Q a s t) ∨
      ∃ e s e' t, x = .error e s ∧ y = .error e' t ∧ k.matching e e' s t := by
  cases x with
  | ok a s =>
    cases y with
    | ok b t => exact Or.inl ⟨a, s, b, t, rfl, rfl, h.1, h.2⟩
    | error e' t => exact absurd h (hy e')
  | error e s =>
    cases y with
    | ok b t => exact absurd h (hx e)
    | error e' t =>
      have hmatching := (h.resolve_left (hx e)).resolve_left (hy e')
      exact Or.inr ⟨e, s, e', t, rfl, rfl, hmatching⟩

/-- Started in states that are related by `P`, the computations end or halt together. -/
def Simulates (k : Terms ε ε' σ τ) (P : σ → τ → Prop) (x : EStateM ε σ α) (y : EStateM ε' τ β)
    (r : α → β → Prop) (Q : α → σ → τ → Prop) : Prop :=
  ∀ s t, P s t → Paired k r Q (x s) (y t)

namespace Simulates

variable {k : Terms ε ε' σ τ} {P P' : σ → τ → Prop} {x : EStateM ε σ α} {y : EStateM ε' τ β}
  {r : α → β → Prop} {Q : α → σ → τ → Prop}

theorem pure {a : α} {b : β} (h : r a b) (hQ : ∀ s t, P s t → Q a s t) :
    Simulates k P (Pure.pure a) (Pure.pure b) r Q :=
  fun s t hP => ⟨h, hQ s t hP⟩

/-- Halts that match. -/
theorem throw {e : ε} {e' : ε'} (h : ∀ s t, P s t → k.matching e e' s t) :
    Simulates k P (throw e : EStateM ε σ α) (throw e' : EStateM ε' τ β) r Q :=
  fun s t hP => Or.inr (Or.inr (h s t hP))

/-- A halt of the first computation that is excused. -/
theorem excuse {e : ε} (h : k.excused e) : Simulates k P (MonadExcept.throw e) y r Q := by
  intro s t _
  show Paired k r Q (.error e s) (y t)
  cases y t with
  | ok b t' => exact h
  | error e' t' => exact Or.inl h

/-- A halt of the second computation that is excused. -/
theorem excuse' {e' : ε'} (h : k.excused' e') : Simulates k P x (MonadExcept.throw e') r Q := by
  intro s t _
  show Paired k r Q (x s) (.error e' t)
  cases x s with
  | ok a s' => exact h
  | error e s' => exact Or.inr (Or.inl h)

theorem bind {f : α → EStateM ε σ γ} {g : β → EStateM ε' τ δ} {r' : γ → δ → Prop}
    {Q' : γ → σ → τ → Prop} (hx : Simulates k P x y r Q)
    (hf : ∀ a b, r a b → Simulates k (Q a) (f a) (g b) r' Q') :
    Simulates k P (x >>= f) (y >>= g) r' Q' := by
  intro s t hP
  have hfirst := hx s t hP
  simp only [Bind.bind, EStateM.bind]
  cases hxs : x s with
  | ok a s' =>
    cases hyt : y t with
    | ok b t' =>
      rw [hxs, hyt] at hfirst
      exact hf a b hfirst.1 s' t' hfirst.2
    | error e' t' =>
      -- the second has halted, and the first may go on as it likes
      rw [hxs, hyt] at hfirst
      exact excuse' (x := f a) (P := fun _ _ => True) hfirst s' t' trivial
  | error e s' =>
    cases hyt : y t with
    | ok b t' =>
      rw [hxs, hyt] at hfirst
      exact excuse (y := g b) (P := fun _ _ => True) hfirst s' t' trivial
    | error e' t' =>
      rw [hxs, hyt] at hfirst
      exact hfirst

/-- A first part with equal results. -/
theorem bind_eq {x : EStateM ε σ α} {y : EStateM ε' τ α} {Q : α → σ → τ → Prop}
    {f : α → EStateM ε σ γ} {g : α → EStateM ε' τ δ} {r' : γ → δ → Prop} {Q' : γ → σ → τ → Prop}
    (hx : Simulates k P x y Eq Q) (hf : ∀ a, Simulates k (Q a) (f a) (g a) r' Q') :
    Simulates k P (x >>= f) (y >>= g) r' Q' := by
  refine hx.bind ?_
  rintro a _ rfl
  exact hf a

/-- Less is known before, or less is claimed after. -/
theorem mono {r' : α → β → Prop} {Q' : α → σ → τ → Prop} (hx : Simulates k P x y r Q)
    (hP : ∀ s t, P' s t → P s t) (hr : ∀ a b, r a b → r' a b)
    (hQ : ∀ a s t, Q a s t → Q' a s t) : Simulates k P' x y r' Q' := by
  intro s t hP'
  have hfirst := hx s t (hP s t hP')
  cases hxs : x s <;> cases hyt : y t <;> rw [hxs, hyt] at hfirst
  · exact ⟨hr _ _ hfirst.1, hQ _ _ _ hfirst.2⟩
  · exact hfirst
  · exact hfirst
  · exact hfirst

/-- Looking at the states. -/
theorem get_bind {f : σ → EStateM ε σ γ} {g : τ → EStateM ε' τ δ} {r' : γ → δ → Prop}
    {Q' : γ → σ → τ → Prop} (h : ∀ s t, P s t → Simulates k P (f s) (g t) r' Q') :
    Simulates k P (get >>= f) (get >>= g) r' Q' :=
  fun s t hP => h s t hP s t hP

/-- Looking at the states, which are known from then on. -/
theorem get_bind_at {f : σ → EStateM ε σ γ} {g : τ → EStateM ε' τ δ} {r' : γ → δ → Prop}
    {Q' : γ → σ → τ → Prop}
    (h : ∀ s t, P s t → Simulates k (fun s' t' => s' = s ∧ t' = t) (f s) (g t) r' Q') :
    Simulates k P (get >>= f) (get >>= g) r' Q' :=
  fun s t hP => h s t hP s t ⟨rfl, rfl⟩

/-- What holds of all related states holds of two that are known. -/
theorem of_related (h : Simulates k P x y r Q) {s : σ} {t : τ} (hP : P s t) :
    Simulates k (fun s' t' => s' = s ∧ t' = t) x y r Q := by
  rintro _ _ ⟨rfl, rfl⟩
  exact h _ _ hP

/-- A step of the first computation alone. -/
theorem modify_bind {change : σ → σ} {f : PUnit → EStateM ε σ α} {R : σ → τ → Prop}
    (h : ∀ s t, P s t → R (change s) t) (hf : Simulates k R (f ⟨⟩) y r Q) :
    Simulates k P (modify change >>= f) y r Q :=
  fun s t hP => hf (change s) t (h s t hP)

/-- A change of the states. -/
theorem modify {change : σ → σ} {change' : τ → τ} {R : σ → τ → Prop}
    (h : ∀ s t, P s t → R (change s) (change' t)) :
    Simulates k P (modify change) (modify change') Eq fun _ => R :=
  fun s t hP => ⟨rfl, h s t hP⟩

/-- States that replace those at hand. -/
theorem set {s : σ} {t : τ} {R : σ → τ → Prop} (h : R s t) :
    Simulates k P (set s : EStateM ε σ PUnit) (set t : EStateM ε' τ PUnit) Eq fun _ => R :=
  fun _ _ _ => ⟨rfl, h⟩

/-- A result that is read off the states together with a change of them. -/
theorem modifyGet {change : σ → α × σ} {change' : τ → α × τ} {R : σ → τ → Prop}
    (h : ∀ s t, P s t → (change s).1 = (change' t).1 ∧ R (change s).2 (change' t).2) :
    Simulates k P (modifyGet change) (modifyGet change') Eq fun _ => R :=
  fun s t hP => h s t hP

end Simulates

end Scriptlet
