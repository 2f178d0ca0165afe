import Scriptlet.Grammar.Declaration
import Scriptlet.Proofs.Grammar.Tokens
import Scriptlet.Proofs.Simulation
import Scriptlet.Proofs.Syntax.ReadBack

/-!
Reading does not look at lines.

Two texts may have the same tokens on different lines: line breaks and comments have been moved,
added or taken out.  Two readers that go through them side by side always see tokens of the same
kinds (`SameKinds`), so they take the same branches.  They end with trees that are equal up to
lines, or they fail for the same cause.

The proof follows the grammar, bottom up:

* **one token**: `advance` keeps `SameKinds`, and so does every procedure that looks at one token and
  takes it or refuses it.  Only the end marker may not be stepped over, so each of these lemmas has
  to know that the token in question is not the end marker;
* **a group of procedures that call each other**: the procedures of expressions are recursive through
  one another, and so are those of blocks.  `ExpressionsTogether n m` and `BlocksTogether n m` collect
  what is to be shown of all members of such a group for the fuels `n` and `m`; there is one lemma
  for each member that goes from `n` and `m` to `n + 1` and `m + 1`, and one induction that assembles
  them;
* **declarations and programs** are read by loops, which need an induction of their own.

The fuel of a reading is measured by the characters left, so the two readings may be given different
fuel.  That one of them might run out of it is left open here, as an excuse in the terms `sameCause`,
and excluded at the end: reading a program never does.

Trees are compared after their lines have been put to `0` (`SameTree`, `SameTrees`), so that equality
up to lines is an equality and the rules about it are short.

Main statement: `parse_layout`, for any two texts whose tokens are of the same kinds.
-/

namespace Scriptlet

/-- The trees are equal up to lines. -/
def Node.SameTree (t u : Node) : Prop := t.eraseLines = u.eraseLines

/-- The trees of the lists are equal up to lines. -/
def Node.SameTrees (ts us : List Node) : Prop := eraseLinesOfAll ts = eraseLinesOfAll us

/-- The error without its line: whether there is one is all that is kept. -/
def Error.eraseLine (e : Error) : Error := ⟨e.cause, e.line.map fun _ => 0⟩

namespace Node

variable {label : Label} {line line' : Nat}

/-- Nodes with the same label are equal up to lines where their children are, on whatever lines
they are themselves. -/
theorem SameTrees.node {ts us : List Node} (h : SameTrees ts us) :
    SameTree ⟨label, ts, line⟩ ⟨label, us, line'⟩ := by
  show mk label (eraseLinesOfAll ts) 0 = mk label (eraseLinesOfAll us) 0
  rw [h]

theorem SameTrees.nil : SameTrees [] [] := rfl

/-- Lists are equal up to lines where their heads and their tails are. -/
theorem SameTree.cons {t u : Node} {ts us : List Node} (h : SameTree t u) (h' : SameTrees ts us) :
    SameTrees (t :: ts) (u :: us) := by
  show t.eraseLines :: eraseLinesOfAll ts = u.eraseLines :: eraseLinesOfAll us
  rw [h, h']

/-- Equal up to lines: the same label, and children that are equal up to lines. -/
theorem SameTree.parts {t u : Node} (h : SameTree t u) :
    t.label = u.label ∧ SameTrees t.children u.children := by
  obtain ⟨label, ts, line⟩ := t
  obtain ⟨label', us, line'⟩ := u
  have heq : mk label (eraseLinesOfAll ts) 0 = mk label' (eraseLinesOfAll us) 0 := h
  rw [mk.injEq] at heq
  exact ⟨heq.1, heq.2.1⟩

/-- The trees of two lists that are equal up to lines are so one by one; in particular there are as
many. -/
theorem SameTrees.forall₂ {ts us : List Node} (h : SameTrees ts us) :
    List.Forall₂ SameTree ts us := by
  induction ts generalizing us with
  | nil =>
    cases us with
    | nil => exact .nil
    | cons u us => cases h
  | cons t ts ih =>
    cases us with
    | nil => cases h
    | cons u us =>
      have heq : t.eraseLines :: eraseLinesOfAll ts = u.eraseLines :: eraseLinesOfAll us := h
      rw [List.cons.injEq] at heq
      exact .cons heq.1 (ih heq.2)

/-- A tree as a list of its own, which is how an argument or a statement is handed on. -/
theorem SameTree.singleton {t u : Node} (h : SameTree t u) : SameTrees [t] [u] := h.cons .nil

theorem SameTree.binary {t t' u u' : Node} (h : SameTree t t') (h' : SameTree u u') :
    SameTree (.binary label t u line) (.binary label t' u' line') :=
  (h.cons h'.singleton).node

theorem SameTrees.append {ts ts' us us' : List Node} (h : SameTrees ts ts')
    (h' : SameTrees us us') :
    SameTrees (ts ++ us) (ts' ++ us') := by
  show eraseLinesOfAll _ = eraseLinesOfAll _
  rw [eraseLinesOfAll_append, eraseLinesOfAll_append, h, h']

end Node

namespace Reader

/-- Both readers have tokens of the same kinds before them and no lexical error, and the same flag.
-/
structure SameKinds (r s : Reader) : Prop where
  sees : ∃ b ts us, r.Sees b ts ∧ s.Sees b us ∧ ts.map Token.kind = us.map Token.kind

/-- The flag, which lets a statement follow without a semicolon, is part of what the two have in
common. -/
theorem SameKinds.resume {r s : Reader} (h : r.SameKinds s) : r.resume = s.resume := by
  obtain ⟨b, ts, us, hr, hs, -⟩ := h.sees
  rw [hr.resume, hs.resume]

/-- The current tokens are of the same kind, and so are those behind them. -/
theorem SameKinds.current {r s : Reader} (h : r.SameKinds s) :
    r.kind = s.kind ∧ ∃ b t u ts us, r.Sees b (t :: ts) ∧ s.Sees b (u :: us) ∧ t.kind = u.kind ∧
      ts.map Token.kind = us.map Token.kind := by
  obtain ⟨b, ts, us, hr, hs, hkinds⟩ := h.sees
  obtain ⟨t, ts, rfl⟩ := hr.exists_cons
  obtain ⟨u, us, rfl⟩ := hs.exists_cons
  rw [List.map_cons, List.map_cons, List.cons.injEq] at hkinds
  refine ⟨?_, b, t, u, ts, us, hr, hs, hkinds⟩
  rw [hr.current.1, hs.current.1, hkinds.1]

/-- The flag of both is set or cleared. -/
theorem SameKinds.withResume {r s : Reader} (h : r.SameKinds s) (b : Bool) :
    SameKinds { r with resume := b } { s with resume := b } := by
  obtain ⟨_, ts, us, hr, hs, hkinds⟩ := h.sees
  exact ⟨b, ts, us, ⟨hr.tokens, hr.ending, rfl⟩, ⟨hs.tokens, hs.ending, rfl⟩, hkinds⟩

/-- The logs do not matter. -/
theorem SameKinds.logged {r s : Reader} (h : r.SameKinds s) (e e' : Event) :
    SameKinds { r with log := r.log.add e } { s with log := s.log.add e' } := by
  obtain ⟨b, ts, us, hr, hs, hkinds⟩ := h.sees
  exact ⟨b, ts, us, ⟨hr.tokens, hr.ending, hr.resume⟩, ⟨hs.tokens, hs.ending, hs.resume⟩, hkinds⟩

end Reader

namespace Reading

open Node Reader

variable {α β γ δ : Type}

/-- Both readings fail for the same cause; either may run out of fuel. -/
def sameCause : Terms Interruption Interruption Reader Reader where
  excused e := e = .outOfFuel
  excused' e := e = .outOfFuel
  matching e e' _ _ := ∃ x y, e = .failed x ∧ e' = .failed y ∧ x.eraseLine = y.eraseLine

/-- From readers that have tokens of the same kinds before them, the readings come to results
related by `related`, and to such readers again. -/
abbrev Together (x : Reading α) (y : Reading β) (related : α → β → Prop) : Prop :=
  Simulates sameCause SameKinds x y related fun _ => SameKinds

/-- The same, from two readers that are known. -/
abbrev TogetherAt (r s : Reader) (x : Reading α) (y : Reading β) (related : α → β → Prop) : Prop :=
  Simulates sameCause (fun r' s' => r' = r ∧ s' = s) x y related fun _ => SameKinds

section Rules

variable {x : Reading α} {y : Reading β} {related : α → β → Prop} {r s : Reader}

/-- Procedures that look at the token before them first: they are compared at two readers that are
known to agree. -/
theorem Together.get_bind {f : Reader → Reading α} {g : Reader → Reading β}
    (h : ∀ r s, r.SameKinds s → TogetherAt r s (f r) (g s) related) :
    Together (get >>= f) (get >>= g) related :=
  .get_bind_at h

/-- Results that are related, from readers that have not moved. -/
theorem Together.pure {a : α} {b : β} (h : related a b) :
    Together (Pure.pure a) (Pure.pure b) related :=
  Simulates.pure h fun _ _ hrs => hrs

theorem TogetherAt.pure {a : α} {b : β} (h : related a b) (hrs : r.SameKinds s) :
    TogetherAt r s (Pure.pure a) (Pure.pure b) related :=
  (Together.pure h).of_related hrs

/-- Failures for the same cause match, on whatever lines the two texts have them. -/
theorem together_fail {line line' : Nat} {cause : Cause} {P : Reader → Reader → Prop}
    {Q : α → Reader → Reader → Prop} :
    Simulates sameCause P (fail line cause : Reading α) (fail line' cause : Reading β) related Q :=
  .throw fun _ _ _ => ⟨_, _, rfl, rfl, rfl⟩

/-- Neither reader is where it was expected to be. -/
theorem togetherAt_unexpected {expected : String} {Q : α → Reader → Reader → Prop}
    (hrs : r.SameKinds s) :
    Simulates sameCause (fun r' s' => r' = r ∧ s' = s) (unexpected expected : Reading α)
      (unexpected expected : Reading β) related Q := by
  refine .get_bind ?_
  rintro _ _ ⟨rfl, rfl⟩
  rw [hrs.current.1]
  exact together_fail

end Rules

/-! ## One token

Every step of a reading is one of these. -/

/-- A step off a token. -/
theorem together_advance :
    Simulates sameCause (fun r s => r.SameKinds s ∧ r.kind ≠ .finish) advance advance Eq
      fun _ => SameKinds := by
  rintro r s ⟨h, hne⟩
  obtain ⟨hkind, b, t, u, ts, us, hr, hs, htu, hrest⟩ := h.current
  have ht : t.kind ≠ .finish := hr.current.1 ▸ hne
  obtain ⟨r', hr', hsees, -⟩ := advance_of_sees hr ht
  obtain ⟨s', hs', hsees', -⟩ := advance_of_sees hs (htu ▸ ht)
  rw [hr', hs']
  exact ⟨rfl, b, ts, us, hsees, hsees', hrest⟩

/-- A step at two readers that are known and not at the end marker. -/
theorem togetherAt_advance {r s : Reader} (h : r.SameKinds s) (hne : r.kind ≠ .finish) :
    TogetherAt r s advance advance Eq :=
  together_advance.of_related ⟨h, hne⟩

/-- Both readers take the token that is expected, or neither does, and then both name the same
token as found. -/
theorem together_expect {kind : Token.Kind} {expected : String} (hne : kind ≠ .finish) :
    Together (expect kind expected) (expect kind expected) Eq := by
  refine Together.get_bind fun r s hrs => ?_
  rw [← hrs.current.1]
  split
  · next hkind => exact togetherAt_advance hrs (hkind ▸ hne)
  · exact togetherAt_unexpected hrs

theorem together_symbol {c : Char} : Together (symbol c) (symbol c) Eq := together_expect (by simp)

theorem together_keyword {word : Keyword} : Together (keyword word) (keyword word) Eq :=
  together_expect (by simp)

/-- The same name is read, for tokens of the same kind carry the same one. -/
theorem together_identifier : Together identifier identifier Eq := by
  refine Together.get_bind fun r s hrs => ?_
  rw [← hrs.current.1]
  split
  · next name hkind =>
    refine (togetherAt_advance hrs (by simp [hkind])).bind_eq fun _ => ?_
    exact .pure rfl fun _ _ h => h
  · exact togetherAt_unexpected hrs

/-- The leaf of a name, which has the line of its token. -/
theorem together_identifierLeaf : Together identifierLeaf identifierLeaf SameTree := by
  refine Together.get_bind fun r s hrs => ?_
  refine (together_identifier.of_related hrs).bind_eq fun name => ?_
  exact Together.pure rfl

/-! ## Expressions

The procedures that read an expression call each other; each is given that the others agree with
less fuel. -/

/-- The parts of an expression are read together, with whatever fuel. -/
structure ExpressionsTogether (n m : Nat) : Prop where
  expressionAt : ∀ tier, Together (expressionAt n tier) (expressionAt m tier) SameTree
  chain : ∀ tier left left', SameTree left left' →
    Together (chain n tier left) (chain m tier left') SameTree
  callArguments : Together (callArguments n) (callArguments m) SameTrees
  someArguments : Together (someArguments n) (someArguments m) SameTrees

namespace ExpressionsTogether

variable {n m : Nat}

/-- An atom: a literal or a name by one token, a call by its arguments, an expression in
parentheses by going back to the loosest tier. -/
theorem atom_succ (h : ExpressionsTogether n m) :
    Together (Reading.expressionAt (n + 1) .atom) (Reading.expressionAt (m + 1) .atom)
      SameTree := by
  rw [Reading.expressionAt, Reading.expressionAt]
  refine Together.get_bind fun r s hrs => ?_
  rw [← hrs.current.1]
  -- equal kinds, so both readers are in the same case
  split
  · next hkind =>
    refine (togetherAt_advance hrs (by simp [hkind])).bind_eq fun _ => ?_
    refine (h.expressionAt .maximum).bind fun inner inner' hinner => ?_
    exact together_symbol.bind_eq fun _ => Together.pure hinner
  · next hkind =>
    exact (togetherAt_advance hrs (by simp [hkind])).bind_eq fun _ => Together.pure rfl
  · next hkind =>
    exact (togetherAt_advance hrs (by simp [hkind])).bind_eq fun _ => Together.pure rfl
  · next name hkind =>
    refine (togetherAt_advance hrs (by simp [hkind])).bind_eq fun _ => ?_
    refine Together.get_bind fun t u htu => ?_
    rw [← htu.current.1]
    split
    · next hopen =>
      refine (togetherAt_advance htu (by simp [hopen])).bind_eq fun _ => ?_
      refine h.callArguments.bind fun arguments arguments' harguments => ?_
      exact together_symbol.bind_eq fun _ => Together.pure harguments.node
    · exact TogetherAt.pure rfl htu
  · exact together_fail

/-- Powers group from the right, so the exponent is again a power with less fuel. -/
theorem power_succ (h : ExpressionsTogether n m) :
    Together (Reading.expressionAt (n + 1) .power) (Reading.expressionAt (m + 1) .power)
      SameTree := by
  rw [Reading.expressionAt, Reading.expressionAt]
  refine (h.expressionAt .atom).bind fun base base' hbase => Together.get_bind fun r s hrs => ?_
  rw [← hrs.current.1]
  split
  · next op hop =>
    refine (togetherAt_advance hrs (Tier.ne_finish_of_operator? hop)).bind_eq fun _ => ?_
    refine (h.expressionAt .power).bind fun exponent exponent' hexponent => ?_
    exact Together.pure (hbase.binary hexponent)
  · exact TogetherAt.pure hbase hrs

/-- The tiers that group from the left. -/
theorem grouped (h : ExpressionsTogether n m) (tier : Tier) :
    Together (do let operand ← Reading.expressionAt n tier.tighter; Reading.chain n tier operand)
      (do let operand ← Reading.expressionAt m tier.tighter; Reading.chain m tier operand)
      SameTree := by
  refine (h.expressionAt tier.tighter).bind fun operand operand' hoperand => ?_
  exact h.chain tier operand operand' hoperand

/-- One more operator of a tier, with what has been read of it so far on its left. -/
theorem chain_succ (h : ExpressionsTogether n m) {tier : Tier} {left left' : Node}
    (hleft : SameTree left left') :
    Together (Reading.chain (n + 1) tier left) (Reading.chain (m + 1) tier left') SameTree := by
  rw [Reading.chain, Reading.chain]
  refine Together.get_bind fun r s hrs => ?_
  rw [← hrs.current.1]
  split
  · next op hop =>
    refine (togetherAt_advance hrs (Tier.ne_finish_of_operator? hop)).bind_eq fun _ => ?_
    refine (h.expressionAt tier.tighter).bind fun right right' hright => ?_
    exact h.chain tier _ _ (hleft.binary hright)
  · exact TogetherAt.pure hleft hrs

/-- The arguments of a call, which may be none. -/
theorem call_succ (h : ExpressionsTogether n m) :
    Together (Reading.callArguments (n + 1)) (Reading.callArguments (m + 1)) SameTrees := by
  rw [Reading.callArguments, Reading.callArguments]
  refine Together.get_bind fun r s hrs => ?_
  rw [← hrs.current.1]
  split
  · exact TogetherAt.pure .nil hrs
  · exact h.someArguments.of_related hrs

theorem some_succ (h : ExpressionsTogether n m) :
    Together (Reading.someArguments (n + 1)) (Reading.someArguments (m + 1)) SameTrees := by
  rw [Reading.someArguments, Reading.someArguments]
  refine (h.expressionAt .maximum).bind fun argument argument' hargument => ?_
  refine Together.get_bind fun r s hrs => ?_
  rw [← hrs.current.1]
  split
  · next hcomma =>
    refine (togetherAt_advance hrs (by simp [hcomma])).bind_eq fun _ => ?_
    refine h.someArguments.bind fun more more' hmore => ?_
    exact Together.pure (hargument.cons hmore)
  · exact TogetherAt.pure hargument.singleton hrs

end ExpressionsTogether

/-- Whatever the fuel of each. -/
theorem expressionsTogether (n m : Nat) : ExpressionsTogether n m := by
  induction n generalizing m with
  | zero => exact ⟨fun _ => .excuse rfl, fun _ _ _ _ => .excuse rfl, .excuse rfl, .excuse rfl⟩
  | succ n ih =>
    cases m with
    | zero => exact ⟨fun _ => .excuse' rfl, fun _ _ _ _ => .excuse' rfl, .excuse' rfl, .excuse' rfl⟩
    | succ m =>
      have h := ih m
      refine ⟨fun tier => ?_, fun _ _ _ hleft => h.chain_succ hleft, h.call_succ, h.some_succ⟩
      cases tier with
      | maximum => exact h.grouped .maximum
      | sum => exact h.grouped .sum
      | product => exact h.grouped .product
      | power => exact h.power_succ
      | atom => exact h.atom_succ

/-- An expression, with whatever fuel for each text. -/
theorem together_expression {n m : Nat} : Together (expression n) (expression m) SameTree :=
  (expressionsTogether n m).expressionAt .maximum

/-- Where a comparison has been found the readers are on a token, and not on the end marker. -/
theorem together_comparator? :
    Simulates sameCause SameKinds comparator? comparator? Eq
      fun op r s => r.SameKinds s ∧ (op.isSome → r.kind ≠ .finish) := by
  refine .get_bind_at fun r s hrs => ?_
  rw [← hrs.current.1]
  -- three of the signs are comparators by themselves
  have hfound : ∀ {c : Char} {op : Comparator}, r.kind = .symbol c →
      Simulates sameCause (fun r' s' => r' = r ∧ s' = s) (pure (some op)) (pure (some op)) Eq
        fun op r s => r.SameKinds s ∧ (op.isSome → r.kind ≠ .finish) := by
    intro c op hkind
    refine .pure rfl ?_
    rintro _ _ ⟨rfl, rfl⟩
    exact ⟨hrs, fun _ => by simp [hkind]⟩
  split
  · next hkind => exact hfound hkind
  · next hkind => exact hfound hkind
  · next hkind => exact hfound hkind
  · -- and `=` is one if another follows
    next hkind =>
    refine (togetherAt_advance hrs (by simp [hkind])).bind_eq fun _ => ?_
    refine .get_bind_at fun t u htu => ?_
    rw [← htu.current.1]
    split
    · next hsecond =>
      refine .pure rfl ?_
      rintro _ _ ⟨rfl, rfl⟩
      exact ⟨htu, fun _ => by simp [hsecond]⟩
    · exact togetherAt_unexpected htu
  · refine .pure rfl ?_
    rintro _ _ ⟨rfl, rfl⟩
    exact ⟨hrs, fun h => by cases h⟩

theorem together_condition {n m : Nat} : Together (condition n) (condition m) SameTree := by
  refine together_expression.bind fun left left' hleft => Together.get_bind fun r s hrs => ?_
  refine (together_comparator?.of_related hrs).bind_eq fun op => ?_
  cases op with
  | some op =>
    refine (together_advance.mono (fun t u h => ⟨h.1, h.2 rfl⟩) (fun _ _ h => h)
      fun _ _ _ h => h).bind_eq fun _ => ?_
    refine together_expression.bind fun right right' hright => ?_
    exact Together.pure (hleft.binary hright)
  | none => exact .pure hleft fun _ _ h => h.1

/-! ## Statements

The simple statements are read in sequence and need no induction.  Blocks, lists and statements are
recursive through each other. -/

/-- An assignment: the name, the sign and the value. -/
theorem together_assignment {n m : Nat} : Together (assignment n) (assignment m) SameTree := by
  refine Together.get_bind fun r s hrs => ?_
  refine (together_identifierLeaf.of_related hrs).bind fun target target' htarget => ?_
  refine Together.get_bind fun t u htu => ?_
  rw [← htu.current.1]
  split
  · next hsign =>
    refine (togetherAt_advance htu (by simp [hsign])).bind_eq fun _ => ?_
    refine together_expression.bind fun value value' hvalue => ?_
    exact Together.pure (htarget.binary hvalue)
  · exact together_fail

theorem together_writing {n m : Nat} : Together (writing n) (writing m) SameTree := by
  refine Together.get_bind fun r s hrs => (together_keyword.of_related hrs).bind_eq fun _ => ?_
  refine together_symbol.bind_eq fun _ => ?_
  refine together_expression.bind fun operand operand' hoperand => ?_
  exact together_symbol.bind_eq fun _ => Together.pure hoperand.singleton.node

theorem together_reading : Together reading reading SameTree := by
  refine Together.get_bind fun r s hrs => (together_keyword.of_related hrs).bind_eq fun _ => ?_
  refine together_symbol.bind_eq fun _ => ?_
  refine together_identifierLeaf.bind fun target target' htarget => ?_
  exact together_symbol.bind_eq fun _ => Together.pure htarget.singleton.node

theorem together_returning {n m : Nat} : Together (returning n) (returning m) SameTree := by
  refine Together.get_bind fun r s hrs => (together_keyword.of_related hrs).bind_eq fun _ => ?_
  refine together_expression.bind fun value value' hvalue => ?_
  exact Together.pure hvalue.singleton.node

/-- What an `if` and a `while` have in common: the word and the condition in parentheses. -/
theorem together_guarded {word : Keyword} {n m : Nat} :
    Together (guarded word n) (guarded word m) SameTree := by
  refine together_keyword.bind_eq fun _ => together_symbol.bind_eq fun _ => ?_
  refine together_condition.bind fun test test' htest => ?_
  exact together_symbol.bind_eq fun _ => Together.pure htest

/-- The parts of a block are read together, with whatever fuel. -/
structure BlocksTogether (n m : Nat) : Prop where
  block : Together (block n) (block m) SameTree
  statementList : Together (statementList n) (statementList m) SameTrees
  statement : Together (statement n) (statement m) fun first first' =>
    SameTrees first.toList first'.toList

namespace BlocksTogether

variable {n m : Nat}

theorem block_succ (h : BlocksTogether n m) :
    Together (Reading.block (n + 1)) (Reading.block (m + 1)) SameTree := by
  rw [Reading.block, Reading.block]
  refine Together.get_bind fun r s hrs => (together_symbol.of_related hrs).bind_eq fun _ => ?_
  refine Together.get_bind fun t u htu => ?_
  refine (h.statementList.of_related htu).bind fun nodes nodes' hnodes => ?_
  refine together_symbol.bind_eq fun _ => ?_
  have hresume : Simulates sameCause SameKinds (modify fun t => { t with resume := true })
      (modify fun t => { t with resume := true }) Eq fun _ => SameKinds :=
    .modify fun r s hrs => hrs.withResume true
  refine hresume.bind_eq fun _ => Together.pure ?_
  have hlist : SameTree ⟨.statements, nodes, t.line⟩ ⟨.statements, nodes', u.line⟩ := hnodes.node
  exact hlist.singleton.node

/-- The statements of a list, which goes on with a semicolon or by the flag. -/
theorem list_succ (h : BlocksTogether n m) :
    Together (Reading.statementList (n + 1)) (Reading.statementList (m + 1)) SameTrees := by
  rw [Reading.statementList, Reading.statementList]
  refine h.statement.bind fun first first' hfirst => Together.get_bind fun r s hrs => ?_
  rw [← hrs.current.1, ← hrs.resume]
  split
  · next hsemicolon =>
    refine (togetherAt_advance hrs (by simp [hsemicolon])).bind_eq fun _ => ?_
    exact h.statementList.bind fun more more' hmore => Together.pure (hfirst.append hmore)
  · split
    · have hresume : TogetherAt r s (modify fun t => { t with resume := false })
          (modify fun t => { t with resume := false }) Eq := by
        refine .modify ?_
        rintro _ _ ⟨rfl, rfl⟩
        exact hrs.withResume false
      refine hresume.bind_eq fun _ => ?_
      exact h.statementList.bind fun more more' hmore => Together.pure (hfirst.append hmore)
    · exact TogetherAt.pure hfirst hrs

/-- A statement of one node. -/
theorem some_node {r s : Reader} {x y : Reading Node} (hrs : r.SameKinds s)
    (h : Together x y SameTree) :
    TogetherAt r s (do let t ← x; pure (some t)) (do let t ← y; pure (some t)) fun first first' =>
      SameTrees first.toList first'.toList :=
  (h.of_related hrs).bind fun _ _ ht => Together.pure ht.singleton

/-- One statement, which may be empty: hence a list of at most one tree. -/
theorem statement_succ (h : BlocksTogether n m) :
    Together (Reading.statement (n + 1)) (Reading.statement (m + 1)) fun first first' =>
      SameTrees first.toList first'.toList := by
  rw [Reading.statement, Reading.statement]
  refine Together.get_bind fun r s hrs => ?_
  rw [← hrs.current.1]
  split
  · exact some_node hrs together_assignment
  · exact some_node hrs together_writing
  · exact some_node hrs together_reading
  · exact some_node hrs together_returning
  · -- a loop
    refine (together_guarded.of_related hrs).bind fun test test' htest => ?_
    refine h.block.bind fun body body' hbody => Together.pure ?_
    exact (htest.binary hbody).singleton
  · -- a choice, with or without an alternative
    refine (together_guarded.of_related hrs).bind fun test test' htest => ?_
    refine h.block.bind fun consequence consequence' hconsequence => ?_
    refine Together.get_bind fun t u htu => ?_
    rw [← htu.current.1]
    split
    · next helse =>
      refine (togetherAt_advance htu (by simp [helse])).bind_eq fun _ => ?_
      refine h.block.bind fun alternative alternative' halternative => Together.pure ?_
      have hparts := htest.cons (hconsequence.cons halternative.singleton)
      exact hparts.node.singleton
    · exact TogetherAt.pure (htest.binary hconsequence).singleton htu
  · exact some_node hrs h.block
  · exact TogetherAt.pure .nil hrs

end BlocksTogether

/-- Whatever the fuel of each. -/
theorem blocksTogether (n m : Nat) : BlocksTogether n m := by
  induction n generalizing m with
  | zero => exact ⟨.excuse rfl, .excuse rfl, .excuse rfl⟩
  | succ n ih =>
    cases m with
    | zero => exact ⟨.excuse' rfl, .excuse' rfl, .excuse' rfl⟩
    | succ m =>
      have h := ih m
      exact ⟨h.block_succ, h.list_succ, h.statement_succ⟩

/-! ## Declarations and programs -/

/-- Parameters by induction on the fuel of the first reader, whatever the second has. -/
theorem together_someParameters (n m : Nat) :
    Together (someParameters n) (someParameters m) SameTrees := by
  induction n generalizing m with
  | zero => exact .excuse rfl
  | succ n ih =>
    cases m with
    | zero => exact .excuse' rfl
    | succ m =>
      rw [someParameters, someParameters]
      refine together_identifierLeaf.bind fun parameter parameter' hparameter => ?_
      refine Together.get_bind fun r s hrs => ?_
      rw [← hrs.current.1]
      split
      · next hcomma =>
        refine (togetherAt_advance hrs (by simp [hcomma])).bind_eq fun _ => ?_
        exact (ih m).bind fun more more' hmore => Together.pure (hparameter.cons hmore)
      · exact TogetherAt.pure hparameter.singleton hrs

/-- The parameters of a declaration, which may be none. -/
theorem together_parameters {n m : Nat} : Together (parameters n) (parameters m) SameTrees := by
  refine Together.get_bind fun r s hrs => ?_
  rw [← hrs.current.1]
  split
  · exact (together_someParameters n m).of_related hrs
  · exact TogetherAt.pure .nil hrs

/-- The implicit `return` at the end of a body. -/
theorem sameTree_appendStatement {t u statement statement' : Node} (h : SameTree t u)
    (hstatement : SameTree statement statement') :
    SameTree (appendStatement statement t) (appendStatement statement' u) := by
  obtain ⟨label, ts, line⟩ := t
  obtain ⟨label', us, line'⟩ := u
  obtain ⟨rfl, hchildren⟩ := h.parts
  cases hchildren.forall₂ with
  | nil => exact SameTrees.nil.node
  | @cons list list' others others' hlist hothers =>
    obtain ⟨listLabel, nodes, listLine⟩ := list
    obtain ⟨listLabel', nodes', listLine'⟩ := list'
    obtain ⟨rfl, hnodes⟩ := hlist.parts
    have hrest : SameTrees others others' := (List.cons.inj hchildren).2
    have happended : SameTree ⟨listLabel, nodes ++ [statement], listLine⟩
        ⟨listLabel, nodes' ++ [statement'], listLine'⟩ := (hnodes.append hstatement.singleton).node
    exact (happended.cons hrest).node

/-- Declarations that are equal up to lines. -/
def SameDeclarations (ds ds' : List (String × Node)) : Prop :=
  ds.map Syntax.eraseDeclaration = ds'.map Syntax.eraseDeclaration

/-- A declaration is a name and a tree; the names are the same, the trees are so up to lines. -/
theorem together_declaration {n m : Nat} :
    Together (declaration n) (declaration m) fun d d' =>
      Syntax.eraseDeclaration d = Syntax.eraseDeclaration d' := by
  refine Together.get_bind fun r s hrs => (together_keyword.of_related hrs).bind_eq fun _ => ?_
  refine together_identifier.bind_eq fun name => together_symbol.bind_eq fun _ => ?_
  refine together_parameters.bind fun names names' hnames => together_symbol.bind_eq fun _ => ?_
  refine (blocksTogether n m).block.bind fun body body' hbody => Together.get_bind fun t u htu => ?_
  have hlogged : ∀ e e' : Event, TogetherAt t u (modify fun t => { t with log := t.log.add e })
      (modify fun t => { t with log := t.log.add e' }) Eq := by
    intro e e'
    refine .modify ?_
    rintro _ _ ⟨rfl, rfl⟩
    exact htu.logged e e'
  refine (hlogged _ _).bind_eq fun _ => Together.pure ?_
  have hfinal : SameTree (finalReturn t.line) (finalReturn u.line) := rfl
  have hparts := hnames.append (sameTree_appendStatement hbody hfinal).singleton
  have hnode : SameTree ⟨.function name, _, r.line⟩ ⟨.function name, _, s.line⟩ := hparts.node
  exact congrArg (Prod.mk name) hnode

/-- The declarations up to the first token that starts none. -/
theorem together_declarations (n m : Nat) :
    Together (declarations n) (declarations m) SameDeclarations := by
  induction n generalizing m with
  | zero => exact .excuse rfl
  | succ n ih =>
    cases m with
    | zero => exact .excuse' rfl
    | succ m =>
      rw [declarations, declarations]
      refine Together.get_bind fun r s hrs => ?_
      rw [← hrs.current.1]
      split
      · refine (together_declaration.of_related hrs).bind fun first first' hfirst => ?_
        exact (ih m).bind fun more more' hmore => Together.pure <| by
          show Syntax.eraseDeclaration first :: more.map _ =
            Syntax.eraseDeclaration first' :: more'.map _
          rw [hfirst, hmore]
      · exact TogetherAt.pure rfl hrs

/-- The table of the functions is built from the declarations in order, so equal declarations give
equal tables. -/
theorem together_program : Together program program fun p q => p.eraseLines = q.eraseLines := by
  refine Together.get_bind fun r s hrs => ?_
  refine ((together_declarations _ _).of_related hrs).bind fun functions functions' hfunctions => ?_
  refine Together.get_bind fun t u htu => ?_
  rw [← htu.current.1]
  split
  · refine TogetherAt.pure ?_ htu
    rw [Syntax.eraseLines_ofDeclarations, Syntax.eraseLines_ofDeclarations, hfunctions]
  · exact together_fail

end Reading

namespace Program

open Reading

/-- Readings of two texts whose tokens are of the same kinds. -/
theorem program_paired {a b : String} {ts us : List Token} (ha : tokens a = .ok ts)
    (hb : tokens b = .ok us) (hkinds : ts.map Token.kind = us.map Token.kind) :
    ∃ c d, Cursor.start a = .ok c ∧ Cursor.start b = .ok d ∧
      Paired sameCause (fun p q => p.eraseLines = q.eraseLines) (fun _ => Reader.SameKinds)
        (Reading.program (startReader c)) (Reading.program (startReader d)) := by
  obtain ⟨c, hc, hcsees⟩ := exists_start_sees ha
  obtain ⟨d, hd, hdsees⟩ := exists_start_sees hb
  refine ⟨c, d, hc, hd, together_program _ _ ⟨false, _, _, hcsees, hdsees, ?_⟩⟩
  rw [List.map_append, List.map_append, hkinds]
  rfl

/-- **Reading does not depend on the layout.**  Two texts whose tokens are of the same kinds are
read as programs with the same tree, up to lines, and the same table of functions; or both are
rejected, for the same cause. -/
theorem parse_layout {a b : String} {ts us : List Token} (ha : tokens a = .ok ts)
    (hb : tokens b = .ok us) (hkinds : ts.map Token.kind = us.map Token.kind) :
    ((parse a).map eraseLines).mapError Error.eraseLine =
      ((parse b).map eraseLines).mapError Error.eraseLine := by
  obtain ⟨c, d, hc, hd, hpaired⟩ := program_paired ha hb hkinds
  -- a parse that runs out of fuel would be excused, but there is none
  unfold parse
  cases hx : Reading.program (startReader c) with
  | ok p r =>
    cases hy : Reading.program (startReader d) with
    | ok q s =>
      rw [hx, hy] at hpaired
      rw [readSource_of_ok hc hx, readSource_of_ok hd hy]
      exact congrArg Except.ok hpaired.1
    | error e s =>
      rw [hx, hy] at hpaired
      rw [show e = .outOfFuel from hpaired] at hy
      exact absurd hy program_ne_outOfFuel
  | error e r =>
    cases hy : Reading.program (startReader d) with
    | ok q s =>
      rw [hx, hy] at hpaired
      rw [show e = .outOfFuel from hpaired] at hx
      exact absurd hx program_ne_outOfFuel
    | error e' s =>
      rw [hx, hy] at hpaired
      rcases hpaired with rfl | rfl | ⟨x, y, rfl, rfl, hsame⟩
      · exact absurd hx program_ne_outOfFuel
      · exact absurd hy program_ne_outOfFuel
      · rw [readSource_of_failed hc hx, readSource_of_failed hd hy]
        exact congrArg Except.error hsame

end Program
end Scriptlet
