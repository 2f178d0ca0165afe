import Scriptlet.Grammar.Reader

/-!
Expressions and conditions.

Operators bind in four tiers.  `$` binds loosest, then `+` and `-`, then `*`, `/` and `%`, all of
them from the left; `^` binds tightest and from the right.  An atom is a number, a text, a name, a
call or an expression in parentheses.  A condition is an expression, or two with one comparison
between them; `?` and `==` are the same comparison.

`expressionAt` takes one unit of fuel per call.  Between two tokens at most six calls are made, so
six times the tokens to come and five more are enough (`Ends.expression`).

A tier that groups from the left is read by a loop: the first operand, and then, as long as there is a
sign of the tier, the sign and the next operand (`chain`).  A tier that groups from the right reads
itself behind its sign.  Where no operand starts, the error names what stands there.

A comparison has one or two characters.  `==` is read as two symbols, so blanks may stand between
them.
-/

namespace Scriptlet

/-- How tightly an operator binds, loosest first. -/
inductive Tier where
  | maximum
  | sum
  | product
  | power
  | atom
  deriving DecidableEq, Repr

namespace Tier

/-- The tier of the operands of a tier. -/
def tighter : Tier → Tier
  | .maximum => .sum
  | .sum => .product
  | .product => .power
  | .power => .atom
  | .atom => .atom

/-- The operators of a tier. -/
def operators : Tier → List Operator
  | .maximum => [.maximum]
  | .sum => [.add, .subtract]
  | .product => [.multiply, .divide, .remainder]
  | .power => [.power]
  | .atom => []

/-- The operator of this tier that a token is. -/
def operator? (tier : Tier) : Token.Kind → Option Operator
  | .symbol c => (Operator.ofSymbol? c).filter fun op => tier.operators.contains op
  | _ => none

/-- How many tiers are at least as tight. -/
def rank : Tier → Nat
  | .maximum => 5
  | .sum => 4
  | .product => 3
  | .power => 2
  | .atom => 1

theorem rank_le (tier : Tier) : tier.rank ≤ 5 := by cases tier <;> decide

/-- An operator is not the end marker. -/
theorem ne_finish_of_operator? {tier : Tier} {kind : Token.Kind} {op : Operator}
    (h : tier.operator? kind = some op) : kind ≠ .finish := by
  rintro rfl
  cases h

end Tier

namespace Reading

mutual

/-- An expression whose operators are all of the given tier or tighter. -/
def expressionAt : Nat → Tier → Reading Node
  | 0, _ => throw .outOfFuel
  | n + 1, .atom => do
    let r ← get
    match r.kind with
    | .symbol '(' => do
      advance
      let inner ← expressionAt n .maximum
      symbol ')'
      pure inner
    | .number x => do
      advance
      pure (.leaf (.number x) r.line)
    | .text literal => do
      advance
      pure (.leaf (.text literal) r.line)
    | .identifier name => do
      advance
      let s ← get
      if s.kind = .symbol '(' then do
        advance
        let arguments ← callArguments n
        symbol ')'
        pure ⟨.call name, arguments, r.line⟩
      else pure (.leaf (.identifier name) r.line)
    | other => fail r.line (.expectedOperand other.describe)
  | n + 1, .power => do
    let base ← expressionAt n .atom
    let r ← get
    match Tier.power.operator? r.kind with
    | some op => do
      advance
      let exponent ← expressionAt n .power
      pure (.binary (.operator op) base exponent r.line)
    | none => pure base
  | n + 1, tier => do
    let operand ← expressionAt n tier.tighter
    chain n tier operand

/-- What follows the first operand of a tier that groups from the left. -/
def chain : Nat → Tier → Node → Reading Node
  | 0, _, _ => throw .outOfFuel
  | n + 1, tier, left => do
    let r ← get
    match tier.operator? r.kind with
    | some op => do
      advance
      let right ← expressionAt n tier.tighter
      chain n tier (.binary (.operator op) left right r.line)
    | none => pure left

/-- The arguments of a call: none before the closing parenthesis, else one or more. -/
def callArguments : Nat → Reading (List Node)
  | 0 => throw .outOfFuel
  | n + 1 => do
    let r ← get
    if r.kind = .symbol ')' then pure [] else someArguments n

/-- One argument, and more after each comma. -/
def someArguments : Nat → Reading (List Node)
  | 0 => throw .outOfFuel
  | n + 1 => do
    let argument ← expressionAt n .maximum
    let r ← get
    if r.kind = .symbol ',' then do
      advance
      let more ← someArguments n
      pure (argument :: more)
    else pure [argument]

end

/-- An expression. -/
def expression (n : Nat) : Reading Node := expressionAt n .maximum

/-- The comparison that the current token starts; `==` is two tokens, of which the first is passed
here. -/
def comparator? : Reading (Option Comparator) := do
  let r ← get
  match r.kind with
  | .symbol '>' => pure (some .greater)
  | .symbol '<' => pure (some .less)
  | .symbol '?' => pure (some .equal)
  | .symbol '=' => do
    advance
    let s ← get
    if s.kind = .symbol '=' then pure (some .equal) else unexpected "="
  | _ => pure none

/-- A condition: an expression, or a comparison of two. -/
def condition (n : Nat) : Reading Node := do
  let left ← expression n
  let r ← get
  match ← comparator? with
  | some op => do
    advance
    let right ← expression n
    pure (.binary (.comparison op) left right r.line)
  | none => pure left

/-! ## The fuel is enough -/

/-- With six units of fuel for each token to come, and as many more as there are tiers to pass, no
part of an expression runs out of it. -/
theorem ends_of_fuel (n : Nat) :
    (∀ tier r, 6 * r.left + tier.rank ≤ n →
      Ends (expressionAt n tier) r fun _ s => s.left < r.left) ∧
    (∀ tier left r, 6 * r.left + 1 ≤ n → Ends (chain n tier left) r fun _ s => s.left ≤ r.left) ∧
    (∀ r, 6 * r.left + 7 ≤ n → Ends (callArguments n) r fun _ s => s.left ≤ r.left) ∧
    (∀ r, 6 * r.left + 6 ≤ n → Ends (someArguments n) r fun _ s => s.left < r.left) := by
  induction n with
  | zero =>
    refine ⟨fun tier r h => ?_, fun _ _ r h => ?_, fun r h => ?_, fun r h => ?_⟩
    · have : 1 ≤ tier.rank := by cases tier <;> decide
      omega
    all_goals omega
  | succ n ih =>
    obtain ⟨ihExpression, ihChain, ihCall, ihSome⟩ := ih
    -- a tier that groups from the left: an operand, then the rest of the chain
    have grouped : ∀ tier r, 6 * r.left + tier.tighter.rank ≤ n →
        Ends (do let operand ← expressionAt n tier.tighter; chain n tier operand) r
          fun _ s => s.left < r.left := by
      intro tier r h
      refine Ends.bind (ihExpression tier.tighter r h) fun operand s hs => ?_
      exact Ends.mono (ihChain tier operand s (by omega)) fun _ t ht => by omega
    refine ⟨fun tier r h => ?_, fun tier left r h => ?_, fun r h => ?_, fun r h => ?_⟩
    · cases tier with
      | maximum => exact grouped .maximum r (by simp only [Tier.rank, Tier.tighter] at h ⊢; omega)
      | sum => exact grouped .sum r (by simp only [Tier.rank, Tier.tighter] at h ⊢; omega)
      | product => exact grouped .product r (by simp only [Tier.rank, Tier.tighter] at h ⊢; omega)
      | power =>
        simp only [Tier.rank] at h
        rw [expressionAt]
        refine Ends.bind (ihExpression .atom r (by simp only [Tier.rank]; omega)) fun base s hs => ?_
        refine Ends.get_bind ?_
        split
        · next op hop =>
          refine Ends.bind (Ends.advance (Tier.ne_finish_of_operator? hop)) fun _ t ht => ?_
          refine Ends.bind (ihExpression .power t (by simp only [Tier.rank]; omega)) fun _ u hu => ?_
          exact Ends.pure (by omega)
        · exact Ends.pure hs
      | atom =>
        simp only [Tier.rank] at h
        rw [expressionAt]
        refine Ends.get_bind ?_
        split
        · -- in parentheses
          next hk =>
          refine Ends.bind (Ends.advance (by simp [hk])) fun _ s hs => ?_
          refine Ends.bind (ihExpression .maximum s (by simp only [Tier.rank]; omega))
            fun inner t ht => ?_
          refine Ends.bind Ends.symbol fun _ u hu => ?_
          exact Ends.pure (by omega)
        · -- a number
          next hk =>
          exact Ends.bind (Ends.advance (by simp [hk])) fun _ s hs => Ends.pure hs
        · -- a text
          next hk =>
          exact Ends.bind (Ends.advance (by simp [hk])) fun _ s hs => Ends.pure hs
        · -- a name, or a call of it
          next hk =>
          refine Ends.bind (Ends.advance (by simp [hk])) fun _ s hs => ?_
          refine Ends.get_bind ?_
          split
          · next hp =>
            refine Ends.bind (Ends.advance (by simp [hp])) fun _ t ht => ?_
            refine Ends.bind (ihCall t (by omega)) fun arguments u hu => ?_
            refine Ends.bind Ends.symbol fun _ v hv => ?_
            exact Ends.pure (by omega)
          · exact Ends.pure hs
        · exact Ends.fail
    · rw [chain]
      refine Ends.get_bind ?_
      split
      · next op hop =>
        refine Ends.bind (Ends.advance (Tier.ne_finish_of_operator? hop)) fun _ s hs => ?_
        have hrank := tier.tighter.rank_le
        refine Ends.bind (ihExpression tier.tighter s (by omega)) fun right t ht => ?_
        exact Ends.mono (ihChain tier _ t (by omega)) fun _ u hu => by omega
      · exact Ends.pure (Nat.le_refl _)
    · rw [callArguments]
      refine Ends.get_bind ?_
      split
      · exact Ends.pure (Nat.le_refl _)
      · exact Ends.mono (ihSome r (by omega)) fun _ s hs => by omega
    · rw [someArguments]
      refine Ends.bind (ihExpression .maximum r (by simp only [Tier.rank]; omega))
        fun argument s hs => ?_
      refine Ends.get_bind ?_
      split
      · next hk =>
        refine Ends.bind (Ends.advance (by simp [hk])) fun _ t ht => ?_
        refine Ends.bind (ihSome t (by omega)) fun more u hu => ?_
        exact Ends.pure (by omega)
      · exact Ends.pure hs

/-- An expression takes at least one token. -/
theorem Ends.expression {n : Nat} {r : Reader} (h : 6 * r.left + 5 ≤ n) :
    Ends (expression n) r fun _ s => s.left < r.left :=
  (ends_of_fuel n).1 .maximum r h

theorem Ends.comparator? {r : Reader} :
    Ends comparator? r fun op s => s.left ≤ r.left ∧ (op.isSome → s.kind ≠ .finish) := by
  refine Ends.get_bind ?_
  split
  · next hk => exact Ends.pure ⟨Nat.le_refl _, fun _ => by simp [hk]⟩
  · next hk => exact Ends.pure ⟨Nat.le_refl _, fun _ => by simp [hk]⟩
  · next hk => exact Ends.pure ⟨Nat.le_refl _, fun _ => by simp [hk]⟩
  · next hk =>
    refine Ends.bind (Ends.advance (by simp [hk])) fun _ s hs => Ends.get_bind ?_
    split
    · next hs' => exact Ends.pure ⟨Nat.le_of_lt hs, fun _ => by simp [hs']⟩
    · exact Ends.unexpected
  · exact Ends.pure ⟨Nat.le_refl _, fun h => by simp at h⟩

/-- A condition takes at least one token. -/
theorem Ends.condition {n : Nat} {r : Reader} (h : 6 * r.left + 5 ≤ n) :
    Ends (condition n) r fun _ s => s.left < r.left := by
  refine Ends.bind (Ends.expression h) fun left s hs => Ends.get_bind ?_
  refine Ends.bind Ends.comparator? fun op t ht => ?_
  split
  · next op =>
    refine Ends.bind (Ends.advance (ht.2 rfl)) fun _ u hu => ?_
    refine Ends.bind (Ends.expression (by omega)) fun right v hv => ?_
    exact Ends.pure (by omega)
  · exact Ends.pure (by omega)

end Reading
end Scriptlet
