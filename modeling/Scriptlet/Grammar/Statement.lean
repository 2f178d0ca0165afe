import Scriptlet.Grammar.Expression

/-!
Statements and blocks.

A block is a list of statements in braces.  After each statement the list goes on with a
semicolon, or without one where a block has closed and no statement has made use of that yet.
A position whose token starts no statement holds the empty statement, which leaves no node.

Each call takes one unit of fuel.  A round of a list may take no token at all: a block has closed,
and the next token starts no statement.  But it clears the flag, and only a block that closes, which
takes tokens, sets it again.  So twice the tokens to come, plus one for the flag, goes down with
every round (`Reader.weight`), and three units of fuel for each are enough (`Ends.block`).
-/

namespace Scriptlet

namespace Reader

/-- What goes down with every round of a list of statements. -/
def weight (r : Reader) : Nat := 2 * r.left + if r.resume then 1 else 0

theorem weight_le (r : Reader) : r.weight ≤ 2 * r.left + 1 := by
  unfold weight
  split <;> omega

theorem le_weight (r : Reader) : 2 * r.left ≤ r.weight := Nat.le_add_right _ _

/-- Tokens weigh more than the flag. -/
theorem weight_lt {r s : Reader} (h : s.left < r.left) : s.weight < r.weight := by
  have := weight_le s
  unfold weight at this ⊢
  split <;> split <;> omega

end Reader

namespace Reading

/-- `name = expression` -/
def assignment (n : Nat) : Reading Node := do
  let r ← get
  let target ← identifierLeaf
  let s ← get
  if s.kind = .symbol '=' then do
    advance
    let value ← expression n
    pure (.binary .assign target value r.line)
  else fail s.line .malformedAssignment

/-- `write(expression)` -/
def writing (n : Nat) : Reading Node := do
  let r ← get
  keyword .writeValue
  symbol '('
  let operand ← expression n
  symbol ')'
  pure ⟨.write, [operand], r.line⟩

/-- `read(name)` -/
def reading : Reading Node := do
  let r ← get
  keyword .readValue
  symbol '('
  let target ← identifierLeaf
  symbol ')'
  pure ⟨.read, [target], r.line⟩

/-- `return expression` -/
def returning (n : Nat) : Reading Node := do
  let r ← get
  keyword .returnValue
  let value ← expression n
  pure ⟨.returnValue, [value], r.line⟩

/-- A reserved word and a condition in parentheses. -/
def guarded (word : Keyword) (n : Nat) : Reading Node := do
  keyword word
  symbol '('
  let test ← condition n
  symbol ')'
  pure test

mutual

/-- A list of statements in braces.  Its end lets the enclosing list go on without a semicolon. -/
def block : Nat → Reading Node
  | 0 => throw .outOfFuel
  | n + 1 => do
    let r ← get
    symbol '\x7b'
    let s ← get
    let statements ← statementList n
    symbol '\x7d'
    modify fun t => { t with resume := true }
    pure ⟨.block, [⟨.statements, statements, s.line⟩], r.line⟩

/-- One statement and those that follow it. -/
def statementList : Nat → Reading (List Node)
  | 0 => throw .outOfFuel
  | n + 1 => do
    let first ← statement n
    let r ← get
    if r.kind = .symbol ';' then do
      advance
      let more ← statementList n
      pure (first.toList ++ more)
    else if r.resume then do
      modify fun s => { s with resume := false }
      let more ← statementList n
      pure (first.toList ++ more)
    else pure first.toList

/-- A statement; none if the current token starts no statement. -/
def statement : Nat → Reading (Option Node)
  | 0 => throw .outOfFuel
  | n + 1 => do
    let r ← get
    match r.kind with
    | .identifier _ => do
      let s ← assignment n
      pure (some s)
    | .keyword .writeValue => do
      let s ← writing n
      pure (some s)
    | .keyword .readValue => do
      let s ← reading
      pure (some s)
    | .keyword .returnValue => do
      let s ← returning n
      pure (some s)
    | .keyword .whileLoop => do
      let test ← guarded .whileLoop n
      let body ← block n
      pure (some (.binary .whileLoop test body r.line))
    | .keyword .ifThen => do
      let test ← guarded .ifThen n
      let consequence ← block n
      let s ← get
      if s.kind = .keyword .elseThen then do
        advance
        let alternative ← block n
        pure (some ⟨.ifThen, [test, consequence, alternative], r.line⟩)
      else pure (some (.binary .ifThen test consequence r.line))
    | .symbol '\x7b' => do
      let s ← block n
      pure (some s)
    | _ => pure none

end

/-! ## The fuel is enough -/

theorem Ends.assignment {n : Nat} {r : Reader} (h : 6 * r.left ≤ n) :
    Ends (assignment n) r fun _ s => s.left < r.left := by
  refine Ends.get_bind (Ends.bind Ends.identifierLeaf fun target s hs => Ends.get_bind ?_)
  split
  · next hk =>
    refine Ends.bind (Ends.advance (by simp [hk])) fun _ t ht => ?_
    refine Ends.bind (Ends.expression (by omega)) fun value u hu => ?_
    exact Ends.pure (by omega)
  · exact Ends.fail

theorem Ends.writing {n : Nat} {r : Reader} (h : 6 * r.left ≤ n) :
    Ends (writing n) r fun _ s => s.left < r.left := by
  refine Ends.get_bind (Ends.bind Ends.keyword fun _ s hs => ?_)
  refine Ends.bind Ends.symbol fun _ t ht => ?_
  refine Ends.bind (Ends.expression (by omega)) fun operand u hu => ?_
  refine Ends.bind Ends.symbol fun _ v hv => ?_
  exact Ends.pure (by omega)

theorem Ends.reading {r : Reader} : Ends reading r fun _ s => s.left < r.left := by
  refine Ends.get_bind (Ends.bind Ends.keyword fun _ s hs => ?_)
  refine Ends.bind Ends.symbol fun _ t ht => ?_
  refine Ends.bind Ends.identifierLeaf fun target u hu => ?_
  refine Ends.bind Ends.symbol fun _ v hv => ?_
  exact Ends.pure (by omega)

theorem Ends.returning {n : Nat} {r : Reader} (h : 6 * r.left ≤ n) :
    Ends (returning n) r fun _ s => s.left < r.left := by
  refine Ends.get_bind (Ends.bind Ends.keyword fun _ s hs => ?_)
  refine Ends.bind (Ends.expression (by omega)) fun value t ht => ?_
  exact Ends.pure (by omega)

theorem Ends.guarded {word : Keyword} {n : Nat} {r : Reader} (h : 6 * r.left ≤ n) :
    Ends (guarded word n) r fun _ s => s.left < r.left := by
  refine Ends.bind Ends.keyword fun _ s hs => ?_
  refine Ends.bind Ends.symbol fun _ t ht => ?_
  refine Ends.bind (Ends.condition (by omega)) fun test u hu => ?_
  refine Ends.bind Ends.symbol fun _ v hv => ?_
  exact Ends.pure (by omega)

/-- With three units of fuel for each unit of weight, and up to three more, no part of a block runs
out of it. -/
theorem ends_of_weight (n : Nat) :
    (∀ r, 3 * r.weight + 1 ≤ n → Ends (block n) r fun _ s => s.left < r.left) ∧
    (∀ r, 3 * r.weight + 3 ≤ n → Ends (statementList n) r fun _ s => s.left ≤ r.left) ∧
    (∀ r, 3 * r.weight + 2 ≤ n →
      Ends (statement n) r fun node s => node = none ∧ s = r ∨ s.left < r.left) := by
  induction n with
  | zero => refine ⟨fun r h => ?_, fun r h => ?_, fun r h => ?_⟩ <;> omega
  | succ n ih =>
    obtain ⟨ihBlock, ihList, ihStatement⟩ := ih
    refine ⟨fun r h => ?_, fun r h => ?_, fun r h => ?_⟩
    · rw [block]
      refine Ends.get_bind (Ends.bind Ends.symbol fun _ s hs => Ends.get_bind ?_)
      have hw := Reader.weight_lt hs
      refine Ends.bind (ihList s (by omega)) fun statements t ht => ?_
      refine Ends.bind Ends.symbol fun _ u hu => Ends.modify_bind ?_
      exact Ends.pure (by show u.left < r.left; omega)
    · rw [statementList]
      refine Ends.bind (ihStatement r (by omega)) fun first s hs => Ends.get_bind ?_
      have hle : s.left ≤ r.left := by
        rcases hs with ⟨_, rfl⟩ | hs
        · exact Nat.le_refl _
        · exact Nat.le_of_lt hs
      split
      · -- a semicolon is a token
        next hk =>
        refine Ends.bind (Ends.advance (by simp [hk])) fun _ t ht => ?_
        have hw := Reader.weight_lt (Nat.lt_of_lt_of_le ht hle)
        refine Ends.bind (ihList t (by omega)) fun more u hu => ?_
        exact Ends.pure (by omega)
      split
      · -- the flag is cleared
        next hres =>
        refine Ends.modify_bind ?_
        have hw : ({ s with resume := false } : Reader).weight < r.weight := by
          rcases hs with ⟨_, rfl⟩ | hs
          · simp [Reader.weight, Reader.left, hres]
          · exact Reader.weight_lt hs
        refine Ends.bind (ihList _ (by omega)) fun more u hu => ?_
        exact Ends.pure (Nat.le_trans hu hle)
      · exact Ends.pure hle
    · rw [statement]
      have hw := r.le_weight
      refine Ends.get_bind ?_
      split
      · exact Ends.bind (Ends.assignment (by omega)) fun _ s hs => Ends.pure (Or.inr hs)
      · exact Ends.bind (Ends.writing (by omega)) fun _ s hs => Ends.pure (Or.inr hs)
      · exact Ends.bind Ends.reading fun _ s hs => Ends.pure (Or.inr hs)
      · exact Ends.bind (Ends.returning (by omega)) fun _ s hs => Ends.pure (Or.inr hs)
      · -- a loop
        refine Ends.bind (Ends.guarded (by omega)) fun test s hs => ?_
        have hw := Reader.weight_lt hs
        refine Ends.bind (ihBlock s (by omega)) fun body t ht => ?_
        exact Ends.pure (Or.inr (by omega))
      · -- a choice
        refine Ends.bind (Ends.guarded (by omega)) fun test s hs => ?_
        have hw := Reader.weight_lt hs
        refine Ends.bind (ihBlock s (by omega)) fun consequence t ht => Ends.get_bind ?_
        split
        · next hk =>
          refine Ends.bind (Ends.advance (by simp [hk])) fun _ u hu => ?_
          have hw' := Reader.weight_lt (show u.left < r.left by omega)
          refine Ends.bind (ihBlock u (by omega)) fun alternative v hv => ?_
          exact Ends.pure (Or.inr (by omega))
        · exact Ends.pure (Or.inr (by omega))
      · exact Ends.bind (ihBlock r (by omega)) fun _ s hs => Ends.pure (Or.inr hs)
      · exact Ends.pure (Or.inl ⟨rfl, rfl⟩)

/-- A block takes at least one token. -/
theorem Ends.block {n : Nat} {r : Reader} (h : 6 * r.left + 4 ≤ n) :
    Ends (block n) r fun _ s => s.left < r.left := by
  refine (ends_of_weight n).1 r ?_
  have := Reader.weight_le r
  omega

end Reading
end Scriptlet
