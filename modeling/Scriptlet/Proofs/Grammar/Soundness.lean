import Scriptlet.Grammar.Declaration
import Scriptlet.Proofs.Grammar.Rules
import Scriptlet.Proofs.Grammar.Tokens

/-!
What is read is derivable.

Every reading that succeeds has taken tokens off the front of what was before it, and the grammar
derives the tree it returns from them.  The proofs go along the readings, and every branch ends in the
rule of the grammar it stands for.  Where readings recurse, what holds of all of them with a given
fuel is one statement (`ExpressionLevel`, `BlockLevel`), and there is one lemma for each of them one
level up.

Each lemma is an instance of `Yields`: if the reading succeeds with a tree, then the tokens before it,
the tree and the tokens after it are related by the grammar.  Expressions leave the flag alone
(`Passed`).  Blocks and statements do not, so the grammar's relations for them carry the flag before
and after, and what is left to claim besides is that the ending of the stream is the same.

A tier that groups from the left is read by `chain`, which is handed the operand read so far.  Its
invariant is that what has been read is an expression of the tier, from the first operand on; each
round of the chain is one use of the rule `joined`.  The tokens of that first operand are no longer
before the reader by then, so the invariant has to name the tokens from which everything started.

No fuel has to be known to be enough: a reading that runs out of it has not succeeded.
-/

namespace Scriptlet

/-! ## Operators

Which sign belongs to which tier, as the grammar has it and as the reader looks it up. -/

/-- The symbol that an operator is found by. -/
theorem Operator.eq_symbol_of_ofSymbol? {c : Char} {op : Operator}
    (h : Operator.ofSymbol? c = some op) : c = op.symbol := by
  unfold Operator.ofSymbol? at h
  split at h <;> cases h <;> rfl

/-- An operator of a tier is a symbol and stands in the table of the tier. -/
theorem Tier.exists_symbol_of_operator? {tier : Tier} {kind : Token.Kind} {op : Operator}
    (h : tier.operator? kind = some op) : kind = .symbol op.symbol ∧ op ∈ tier.operators := by
  unfold Tier.operator? at h
  split at h
  · next c =>
    obtain ⟨hop, hmem⟩ := Option.filter_eq_some_iff.1 h
    exact ⟨congrArg Token.Kind.symbol (Operator.eq_symbol_of_ofSymbol? hop), by simpa using hmem⟩
  · cases h

namespace Grammar

/-- The operators of the tiers that group from the left. -/
theorem joins_of_mem {tier : Tier} {op : Operator} (h : op ∈ tier.operators)
    (htier : tier ≠ .power) : Joins tier op.symbol op tier.tighter := by
  cases tier with
  | maximum =>
    obtain rfl : op = .maximum := by simpa [Tier.operators] using h
    exact Joins.maximum
  | sum =>
    rcases (by simpa [Tier.operators] using h : op = .add ∨ op = .subtract) with rfl | rfl
    · exact Joins.add
    · exact Joins.subtract
  | product =>
    rcases (by simpa [Tier.operators] using h :
      op = .multiply ∨ op = .divide ∨ op = .remainder) with rfl | rfl | rfl
    · exact Joins.multiply
    · exact Joins.divide
    · exact Joins.remainder
  | power => exact absurd rfl htier
  | atom => cases h

end Grammar

namespace Reading

open Grammar

/-! ## Expressions -/

/-- What is read of an expression with a given fuel is derivable. -/
structure ExpressionLevel (n : Nat) : Prop where
  expression : ∀ tier r, Yields (expressionAt n tier) r fun t s =>
    Expression tier r.tokens t s.tokens ∧ r.Passed s
  chain : ∀ tier ts left r, tier ≠ .power → Expression tier ts left r.tokens →
    Yields (chain n tier left) r fun t s => Expression tier ts t s.tokens ∧ r.Passed s
  call : ∀ r, Yields (callArguments n) r fun arguments s =>
    Arguments r.tokens arguments s.tokens ∧ r.Passed s
  some : ∀ r, Yields (someArguments n) r fun arguments s =>
    SomeArguments r.tokens arguments s.tokens ∧ r.Passed s

namespace ExpressionLevel

variable {n : Nat} {r : Reader}

/-- An atom: what follows its first token decides between a name and a call. -/
theorem atom_succ (hn : ExpressionLevel n) : Yields (expressionAt (n + 1) .atom) r fun t s =>
    Expression .atom r.tokens t s.tokens ∧ r.Passed s := by
  rw [expressionAt]
  apply Yields.get_bind
  split
  · -- in parentheses
    next hk =>
    refine Yields.bind (Yields.advance hk (by simp)) fun _ s hs => ?_
    refine Yields.bind (hn.expression .maximum s) fun inner t ht => ?_
    refine Yields.bind Yields.symbol fun _ u hu => ?_
    refine Yields.pure ⟨?_, (hs.2.trans ht.2).trans hu.2⟩
    rw [hu.1] at ht
    rw [hs.1]
    exact .parentheses ht.1
  · -- a number
    next x hk =>
    refine Yields.bind (Yields.advance hk (by simp)) fun _ s hs => ?_
    refine Yields.pure ⟨?_, hs.2⟩
    rw [hs.1]
    exact .number
  · -- a text
    next literal hk =>
    refine Yields.bind (Yields.advance hk (by simp)) fun _ s hs => ?_
    refine Yields.pure ⟨?_, hs.2⟩
    rw [hs.1]
    exact .text
  · -- a name, or a call of it
    next name hk =>
    refine Yields.bind (Yields.advance hk (by simp)) fun _ s hs => Yields.get_bind ?_
    split
    · next hp =>
      refine Yields.bind (Yields.advance hp (by simp)) fun _ t ht => ?_
      refine Yields.bind (hn.call t) fun arguments u hu => ?_
      refine Yields.bind Yields.symbol fun _ v hv => ?_
      refine Yields.pure ⟨?_, ((hs.2.trans ht.2).trans hu.2).trans hv.2⟩
      rw [hv.1] at hu
      rw [hs.1, ht.1]
      exact .call hu.1
    · refine Yields.pure ⟨?_, hs.2⟩
      rw [hs.1]
      exact .name
  · exact Yields.fail

/-- A power: its exponent is a power again. -/
theorem power_succ (hn : ExpressionLevel n) : Yields (expressionAt (n + 1) .power) r fun t s =>
    Expression .power r.tokens t s.tokens ∧ r.Passed s := by
  rw [expressionAt]
  refine Yields.bind (hn.expression .atom r) fun base s hs => Yields.get_bind ?_
  split
  · next op hop =>
    obtain ⟨hk, hmem⟩ := Tier.exists_symbol_of_operator? hop
    obtain rfl : op = .power := by simpa [Tier.operators] using hmem
    refine Yields.bind (Yields.advance hk (by simp)) fun _ t ht => ?_
    refine Yields.bind (hn.expression .power t) fun exponent u hu => ?_
    refine Yields.pure ⟨?_, (hs.2.trans ht.2).trans hu.2⟩
    rw [ht.1] at hs
    exact .power hs.1 hu.1
  · exact Yields.pure ⟨.operand .power hs.1, hs.2⟩

/-- A tier that groups from the left: an operand, then the rest of the chain. -/
theorem grouped (hn : ExpressionLevel n) {tier : Tier} (htier : tier ≠ .power)
    (habove : Above tier tier.tighter) :
    Yields (do let operand ← expressionAt n tier.tighter; Reading.chain n tier operand) r fun t s =>
      Expression tier r.tokens t s.tokens ∧ r.Passed s := by
  refine Yields.bind (hn.expression tier.tighter r) fun operand s hs => ?_
  have hchain := hn.chain tier r.tokens operand s htier (.operand habove hs.1)
  exact Yields.mono hchain fun t u hu => ⟨hu.1, hs.2.trans hu.2⟩

/-- One round of a chain joins one more operand. -/
theorem chain_succ (hn : ExpressionLevel n) {tier : Tier} {ts : List Token} {left : Node}
    (htier : tier ≠ .power) (hleft : Expression tier ts left r.tokens) :
    Yields (Reading.chain (n + 1) tier left) r fun t s =>
      Expression tier ts t s.tokens ∧ r.Passed s := by
  rw [Reading.chain]
  apply Yields.get_bind
  split
  · next op hop =>
    obtain ⟨hk, hmem⟩ := Tier.exists_symbol_of_operator? hop
    refine Yields.bind (Yields.advance hk (by simp)) fun _ s hs => ?_
    refine Yields.bind (hn.expression tier.tighter s) fun right t ht => ?_
    rw [hs.1] at hleft
    have hjoined := Expression.joined (joins_of_mem hmem htier) hleft ht.1
    refine Yields.mono (hn.chain tier ts _ t htier hjoined) fun t' u hu => ?_
    exact ⟨hu.1, (hs.2.trans ht.2).trans hu.2⟩
  · exact Yields.pure ⟨hleft, .refl r⟩

theorem some_succ (hn : ExpressionLevel n) : Yields (someArguments (n + 1)) r fun arguments s =>
    SomeArguments r.tokens arguments s.tokens ∧ r.Passed s := by
  rw [someArguments]
  refine Yields.bind (hn.expression .maximum r) fun argument s hs => Yields.get_bind ?_
  split
  · next hk =>
    refine Yields.bind (Yields.advance hk (by simp)) fun _ t ht => ?_
    refine Yields.bind (hn.some t) fun more u hu => ?_
    refine Yields.pure ⟨?_, (hs.2.trans ht.2).trans hu.2⟩
    rw [ht.1] at hs
    exact .cons hs.1 hu.1
  · exact Yields.pure ⟨.last hs.1, hs.2⟩

end ExpressionLevel

/-- Whatever the fuel, the parts of an expression that are read are derivable. -/
theorem expressionLevel (n : Nat) : ExpressionLevel n := by
  induction n with
  | zero =>
    exact ⟨fun _ _ => Yields.throw, fun _ _ _ _ _ _ => Yields.throw, fun _ => Yields.throw,
      fun _ => Yields.throw⟩
  | succ n ih =>
    constructor
    · -- one lemma for each procedure, and the tiers of expressions one by one
      intro tier r
      cases tier with
      | maximum => exact ih.grouped (by simp) .maximum
      | sum => exact ih.grouped (by simp) .sum
      | product => exact ih.grouped (by simp) .product
      | power => exact ih.power_succ
      | atom => exact ih.atom_succ
    · intro tier ts left r htier hleft
      exact ih.chain_succ htier hleft
    · intro r
      rw [callArguments]
      apply Yields.get_bind
      split
      · exact Yields.pure ⟨.none, .refl r⟩
      · exact Yields.mono (ih.some r) fun arguments s hs => ⟨.some hs.1, hs.2⟩
    · intro r
      exact ih.some_succ

theorem Yields.expression {n : Nat} {r : Reader} :
    Yields (expression n) r fun t s => Expression .maximum r.tokens t s.tokens ∧ r.Passed s :=
  (expressionLevel n).expression .maximum r

/-- The sign of a comparison: the last of its tokens is the current one. -/
theorem Yields.comparator? {r : Reader} :
    Yields comparator? r fun found s => r.Passed s ∧
      match found with
      | none => s = r
      | some op => ∀ ts, s.tokens = ⟨s.kind, s.line⟩ :: ts → s.kind ≠ .finish ∧
          Sign r.tokens op r.line ts := by
  -- the comparators of one sign
  have single : ∀ op c, r.kind = .symbol c →
      (∀ line rest, Sign (⟨.symbol c, line⟩ :: rest) op line rest) →
      ∀ ts, r.tokens = ⟨r.kind, r.line⟩ :: ts → r.kind ≠ .finish ∧ Sign r.tokens op r.line ts := by
    intro op c hk hsign ts hts
    rw [hts, hk]
    exact ⟨by simp, hsign r.line ts⟩
  refine Yields.get_bind ?_
  split
  · next hk => exact Yields.pure ⟨.refl r, single .greater '>' hk fun _ _ => .greater⟩
  · next hk => exact Yields.pure ⟨.refl r, single .less '<' hk fun _ _ => .less⟩
  · next hk => exact Yields.pure ⟨.refl r, single .equal '?' hk fun _ _ => .equal⟩
  · -- `==` is the only one of two
    next hk =>
    refine Yields.bind (Yields.advance hk (by simp)) fun _ s hs => Yields.get_bind ?_
    split
    · next hk' =>
      refine Yields.pure ⟨hs.2, fun ts hts => ?_⟩
      rw [hs.1, hts, hk']
      exact ⟨by simp, .doubled⟩
    · exact Yields.unexpected
  · exact Yields.pure ⟨.refl r, rfl⟩

theorem Yields.condition {n : Nat} {r : Reader} :
    Yields (condition n) r fun t s => Condition r.tokens t s.tokens ∧ r.Passed s := by
  refine Yields.bind Yields.expression fun left s hs => Yields.get_bind ?_
  refine Yields.bind Yields.comparator? fun found t ht => ?_
  obtain ⟨hpassed, hfound⟩ := ht
  split
  · next op =>
    -- the last token of the sign is still there, and is taken next
    obtain ⟨ts, hts⟩ := t.exists_tokens
    obtain ⟨hne, hsign⟩ := hfound ts hts
    refine Yields.bind (Yields.advance rfl hne) fun _ u hu => ?_
    obtain rfl : ts = u.tokens := by
      have heq := hts.symm.trans hu.1
      rw [List.cons.injEq] at heq
      exact heq.2
    refine Yields.bind Yields.expression fun right v hv => ?_
    exact Yields.pure ⟨.comparison hs.1 hsign hv.1, ((hs.2.trans hpassed).trans hu.2).trans hv.2⟩
  · obtain rfl : t = s := hfound
    exact Yields.pure ⟨.expression hs.1, hs.2⟩

/-! ## Statements -/

theorem Yields.assignment {n : Nat} {r : Reader} :
    Yields (assignment n) r fun t s =>
      Statement r.resume r.tokens (some t) r.resume s.tokens ∧ r.Passed s := by
  refine Yields.get_bind (Yields.bind Yields.identifierLeaf fun target s hs => Yields.get_bind ?_)
  obtain ⟨name, rfl, hs⟩ := hs
  split
  · next hk =>
    refine Yields.bind (Yields.advance hk (by simp)) fun _ t ht => ?_
    refine Yields.bind Yields.expression fun value u hu => ?_
    refine Yields.pure ⟨?_, (hs.2.trans ht.2).trans hu.2⟩
    rw [hs.1, ht.1]
    exact .assignment hu.1
  · exact Yields.fail

theorem Yields.writing {n : Nat} {r : Reader} :
    Yields (writing n) r fun t s =>
      Statement r.resume r.tokens (some t) r.resume s.tokens ∧ r.Passed s := by
  refine Yields.get_bind (Yields.bind Yields.keyword fun _ s hs => ?_)
  refine Yields.bind Yields.symbol fun _ t ht => ?_
  refine Yields.bind Yields.expression fun operand u hu => ?_
  refine Yields.bind Yields.symbol fun _ v hv => ?_
  refine Yields.pure ⟨?_, ((hs.2.trans ht.2).trans hu.2).trans hv.2⟩
  rw [hv.1] at hu
  rw [hs.1, ht.1]
  exact .writing hu.1

theorem Yields.reading {r : Reader} :
    Yields reading r fun t s =>
      Statement r.resume r.tokens (some t) r.resume s.tokens ∧ r.Passed s := by
  refine Yields.get_bind (Yields.bind Yields.keyword fun _ s hs => ?_)
  refine Yields.bind Yields.symbol fun _ t ht => ?_
  refine Yields.bind Yields.identifierLeaf fun target u hu => ?_
  obtain ⟨name, rfl, hu⟩ := hu
  refine Yields.bind Yields.symbol fun _ v hv => ?_
  refine Yields.pure ⟨?_, ((hs.2.trans ht.2).trans hu.2).trans hv.2⟩
  rw [hs.1, ht.1, hu.1, hv.1]
  exact .reading

theorem Yields.returning {n : Nat} {r : Reader} :
    Yields (returning n) r fun t s =>
      Statement r.resume r.tokens (some t) r.resume s.tokens ∧ r.Passed s := by
  refine Yields.get_bind (Yields.bind Yields.keyword fun _ s hs => ?_)
  refine Yields.bind Yields.expression fun value t ht => ?_
  refine Yields.pure ⟨?_, hs.2.trans ht.2⟩
  rw [hs.1]
  exact .returning ht.1

/-- The word and the condition of a loop or a choice. -/
theorem Yields.guarded {word : Keyword} {n : Nat} {r : Reader} :
    Yields (guarded word n) r fun test s => r.Passed s ∧ ∃ opening close ts,
      r.tokens = ⟨.keyword word, r.line⟩ :: ⟨.symbol '(', opening⟩ :: ts ∧
      Condition ts test (⟨.symbol ')', close⟩ :: s.tokens) := by
  refine Yields.bind Yields.keyword fun _ s hs => ?_
  refine Yields.bind Yields.symbol fun _ t ht => ?_
  refine Yields.bind Yields.condition fun test u hu => ?_
  refine Yields.bind Yields.symbol fun _ v hv => ?_
  refine Yields.pure ⟨((hs.2.trans ht.2).trans hu.2).trans hv.2, s.line, u.line, t.tokens, ?_, ?_⟩
  · rw [hs.1, ht.1]
  · rw [← hv.1]
    exact hu.1

/-- What is read of a block with a given fuel is derivable, with the flag of the reader as the
attribute. -/
structure BlockLevel (n : Nat) : Prop where
  block : ∀ r, Yields (block n) r fun t s =>
    Block r.resume r.tokens t s.resume s.tokens ∧ s.ending = r.ending
  list : ∀ r, Yields (statementList n) r fun nodes s =>
    Statements r.resume r.tokens nodes s.resume s.tokens ∧ s.ending = r.ending
  statement : ∀ r, Yields (statement n) r fun node s =>
    Statement r.resume r.tokens node s.resume s.tokens ∧ s.ending = r.ending

/-- A statement that leaves the flag alone. -/
theorem yields_plain {x : Reading Node} {r : Reader}
    (hx : Yields x r fun t s =>
      Statement r.resume r.tokens (some t) r.resume s.tokens ∧ r.Passed s) :
    Yields (do let t ← x; pure (some t)) r fun node s =>
      Statement r.resume r.tokens node s.resume s.tokens ∧ s.ending = r.ending := by
  refine Yields.bind hx fun t s hs => Yields.pure ⟨?_, hs.2.ending⟩
  rw [hs.2.resume]
  exact hs.1

/-- Where no other statement starts, the empty one is read. -/
theorem statement_empty {r : Reader} (h : ¬ StartsStatement r.kind) :
    Statement r.resume r.tokens none r.resume r.tokens := by
  obtain ⟨ts, hts⟩ := r.exists_tokens
  rw [hts]
  exact .empty h

namespace BlockLevel

variable {n : Nat} {r : Reader}

/-- A list in braces, which sets the flag. -/
theorem block_succ (hn : BlockLevel n) : Yields (Reading.block (n + 1)) r fun t s =>
    Block r.resume r.tokens t s.resume s.tokens ∧ s.ending = r.ending := by
  rw [Reading.block]
  refine Yields.get_bind (Yields.bind Yields.symbol fun _ s hs => Yields.get_bind ?_)
  refine Yields.bind (hn.list s) fun nodes t ht => ?_
  refine Yields.bind Yields.symbol fun _ u hu => Yields.modify_bind (Yields.pure ?_)
  constructor
  · obtain ⟨ts, hts⟩ := s.exists_tokens
    rw [hu.1, hts, hs.2.resume] at ht
    rw [hs.1, hts]
    exact .braces ht.1
  · exact hu.2.ending.trans (ht.2.trans hs.2.ending)

/-- A list goes on, or ends, in the three ways of the grammar. -/
theorem list_succ (hn : BlockLevel n) : Yields (statementList (n + 1)) r fun nodes s =>
    Statements r.resume r.tokens nodes s.resume s.tokens ∧ s.ending = r.ending := by
  rw [statementList]
  refine Yields.bind (hn.statement r) fun first s hs => Yields.get_bind ?_
  split
  · -- a semicolon
    next hk =>
    refine Yields.bind (Yields.advance hk (by simp)) fun _ t ht => ?_
    refine Yields.bind (hn.list t) fun more u hu => ?_
    refine Yields.pure ⟨?_, hu.2.trans (ht.2.ending.trans hs.2)⟩
    rw [ht.1] at hs
    rw [ht.2.resume] at hu
    exact .separated hs.1 hu.1
  obtain ⟨ts, hts⟩ := s.exists_tokens
  rw [hts] at hs
  split
  · -- the flag is set, and is cleared
    next hk hres =>
    refine Yields.modify_bind (Yields.bind (hn.list _) fun more u hu => ?_)
    refine Yields.pure ⟨?_, hu.2.trans hs.2⟩
    have hcleared : ({ s with resume := false } : Reader).tokens = ⟨s.kind, s.line⟩ :: ts := hts
    rw [hcleared] at hu
    rw [hres] at hs
    exact .resumed hs.1 hk hu.1
  · -- the flag is not set: the list ends
    next hk hres =>
    refine Yields.pure ⟨?_, hs.2⟩
    rw [Bool.eq_false_iff.2 hres] at hs ⊢
    rw [hts]
    exact .last hs.1 hk

/-- A statement, by its first token; where that starts none nothing has been read. -/
theorem statement_succ (hn : BlockLevel n) : Yields (Reading.statement (n + 1)) r fun node s =>
    Statement r.resume r.tokens node s.resume s.tokens ∧ s.ending = r.ending := by
  rw [Reading.statement]
  apply Yields.get_bind
  split
  · exact yields_plain Yields.assignment
  · exact yields_plain Yields.writing
  · exact yields_plain Yields.reading
  · exact yields_plain Yields.returning
  · -- a loop
    refine Yields.bind Yields.guarded fun test s hs => ?_
    obtain ⟨hs, opening, close, ts, hts, hguard⟩ := hs
    refine Yields.bind (hn.block s) fun body t ht => ?_
    refine Yields.pure ⟨?_, ht.2.trans hs.ending⟩
    rw [hs.resume] at ht
    rw [hts]
    exact .whileLoop hguard ht.1
  · -- a choice, with or without an alternative
    refine Yields.bind Yields.guarded fun test s hs => ?_
    obtain ⟨hs, opening, close, ts, hts, hguard⟩ := hs
    refine Yields.bind (hn.block s) fun consequence t ht => Yields.get_bind ?_
    rw [hs.resume] at ht
    rw [hts]
    split
    · next hk =>
      refine Yields.bind (Yields.advance hk (by simp)) fun _ u hu => ?_
      refine Yields.bind (hn.block u) fun alternative v hv => ?_
      refine Yields.pure ⟨?_, hv.2.trans (hu.2.ending.trans (ht.2.trans hs.ending))⟩
      rw [hu.1] at ht
      rw [hu.2.resume] at hv
      exact .ifThenElse hguard ht.1 hv.1
    · exact Yields.pure ⟨.ifThen hguard ht.1, ht.2.trans hs.ending⟩
  · exact Yields.bind (hn.block r) fun t s hs => Yields.pure ⟨.block hs.1, hs.2⟩
  · -- no statement starts here
    refine Yields.pure ⟨statement_empty fun hstarts => ?_, rfl⟩
    generalize r.kind = kind at *
    cases hstarts <;> simp_all

end BlockLevel

/-- Whatever the fuel, the parts of a block that are read are derivable. -/
theorem blockLevel (n : Nat) : BlockLevel n := by
  induction n with
  | zero => exact ⟨fun _ => Yields.throw, fun _ => Yields.throw, fun _ => Yields.throw⟩
  | succ n ih =>
    constructor
    · exact fun r => ih.block_succ
    · exact fun r => ih.list_succ
    · exact fun r => ih.statement_succ

theorem Yields.block {n : Nat} {r : Reader} :
    Yields (block n) r fun t s =>
      Block r.resume r.tokens t s.resume s.tokens ∧ s.ending = r.ending :=
  (blockLevel n).block r

/-! ## Declarations and programs -/

theorem yields_someParameters (n : Nat) :
    ∀ r, Yields (someParameters n) r fun names s =>
      SomeParameters r.tokens names s.tokens ∧ r.Passed s := by
  induction n with
  | zero => exact fun _ => Yields.throw
  | succ n ih =>
    intro r
    rw [someParameters]
    refine Yields.bind Yields.identifierLeaf fun parameter s hs => Yields.get_bind ?_
    obtain ⟨name, rfl, hs⟩ := hs
    split
    · next hk =>
      refine Yields.bind (Yields.advance hk (by simp)) fun _ t ht => ?_
      refine Yields.bind (ih t) fun more u hu => ?_
      refine Yields.pure ⟨?_, (hs.2.trans ht.2).trans hu.2⟩
      rw [hs.1, ht.1]
      exact .cons hu.1
    · refine Yields.pure ⟨?_, hs.2⟩
      rw [hs.1]
      exact .last

theorem Yields.parameters {n : Nat} {r : Reader} :
    Yields (parameters n) r fun names s => Parameters r.tokens names s.tokens ∧ r.Passed s := by
  refine Yields.get_bind ?_
  split
  · exact Yields.mono (yields_someParameters n r) fun names s hs => ⟨.some hs.1, hs.2⟩
  · exact Yields.pure ⟨.none, .refl r⟩

/-- A declaration, whose event in the log is nothing to the grammar. -/
theorem Yields.declaration {n : Nat} {r : Reader} :
    Yields (declaration n) r fun first s =>
      Declaration r.resume r.tokens first s.resume s.tokens ∧ s.ending = r.ending := by
  refine Yields.get_bind (Yields.bind Yields.keyword fun _ s hs => ?_)
  refine Yields.bind Yields.identifier fun name t ht => ?_
  refine Yields.bind Yields.symbol fun _ u hu => ?_
  refine Yields.bind Yields.parameters fun names v hv => ?_
  refine Yields.bind Yields.symbol fun _ w hw => ?_
  refine Yields.bind Yields.block fun body x hx => Yields.get_bind (Yields.modify_bind ?_)
  have hpassed := (((hs.2.trans ht.2).trans hu.2).trans hv.2).trans hw.2
  refine Yields.pure ⟨?_, hx.2.trans hpassed.ending⟩
  -- the tokens that each part leaves are those that the next one begins with
  obtain ⟨ts, hts⟩ := x.exists_tokens
  rw [hw.1] at hv
  rw [hts, hpassed.resume] at hx
  rw [hs.1, ht.1, hu.1]
  show Declaration r.resume _ _ x.resume x.tokens
  rw [hts]
  generalize w.tokens = us, x.resume = b at hv hx ⊢
  obtain ⟨hbody, -⟩ := hx
  cases hbody with
  | braces inner => exact .function hv.1 (.braces inner)

/-- The declarations up to the first token that starts none. -/
theorem yields_declarations (n : Nat) :
    ∀ r, Yields (declarations n) r fun functions s =>
      Declarations r.resume r.tokens functions s.resume s.tokens ∧ s.ending = r.ending := by
  induction n with
  | zero => exact fun _ => Yields.throw
  | succ n ih =>
    intro r
    rw [declarations]
    refine Yields.get_bind ?_
    split
    · refine Yields.bind Yields.declaration fun first s hs => ?_
      refine Yields.bind (ih s) fun more t ht => ?_
      exact Yields.pure ⟨.cons hs.1 ht.1, ht.2.trans hs.2⟩
    · exact Yields.pure ⟨.none, rfl⟩

/-- **Soundness.**  A program that is read from a cleared flag on is spelled by the tokens that were
before the reader, and these were free of lexical errors. -/
theorem Yields.program {r : Reader} (hr : r.resume = false) :
    Yields program r fun p _ => Derives r.tokens p ∧ ∃ t, r.ending = .ok t := by
  refine Yields.get_bind ?_
  refine Yields.bind (yields_declarations _ r) fun functions s hs => Yields.get_bind ?_
  split
  · next hk =>
    obtain ⟨htokens, hending⟩ := Reader.tokens_of_finish hk
    obtain ⟨ts, hts⟩ := r.exists_tokens
    rw [htokens, hending, hts, hr] at hs
    rw [hts]
    exact Yields.pure ⟨.program hs.1 rfl, _, hs.2.symm⟩
  · exact Yields.fail

end Reading
end Scriptlet
