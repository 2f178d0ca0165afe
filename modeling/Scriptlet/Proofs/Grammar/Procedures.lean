import Scriptlet.Grammar.Declaration
import Scriptlet.Proofs.Grammar.Tokens

/-!
The procedures of the grammar and what each of them calls.

Fuel makes every procedure end, but says nothing of why it is enough.  Here the procedures are taken
apart: `body` is what each does, with the calls it makes left to a parameter, and `run` are the
procedures with their fuel.  A call is made with less before the reader, or further down among the
procedures that take no token in between: `measure` counts twice the tokens to come, one for the flag
(`Reader.remaining`), and then the rank of the procedure.  `Reader.weight` is like it but bounds the
tokens by the characters that are left, which can be told without reading on.

The tokens count twice so that the flag weighs less than any of them: a block sets it, but takes its
two braces, so what remains goes down all the same.  A round of a list that takes no token clears the
flag, and this is the one place where the flag itself is what goes down.  The ranks number the
procedures in the order in which they call each other at one and the same token, as an expression of a
loose tier calls the next tighter one.

`Agrees excused x y r post` compares two ways of carrying out a reading: from the state `r` they come
to the same, and `y` ends and leaves what `post` says; the first may run out of fuel where that is
excused.  In one use of it both ways are the procedures with different fuel; in another, the second is
a recursion on the measure.  Each lemma `agrees_*` is about one procedure.  It is given the agreement
of all calls of a smaller measure (`AgreesBelow`), goes along the text of the procedure, and at each
call shows that the measure has gone down: by what the tokens in between have taken
(`of_remaining_lt`), or by the rank where nothing has been taken (`of_rank_lt`).

Main statement: if calls of a smaller measure come to the same in two ways of carrying them out, and
take the tokens they should, so does the body (`body_agrees`).
-/

namespace Scriptlet

namespace Reader

/-- Twice the tokens to come, and one more while the flag is set. -/
def remaining (r : Reader) : Nat := 2 * r.tokens.length + if r.resume then 1 else 0

/-- A step off a token takes two. -/
theorem remaining_add_two {r s : Reader} {t : Token} (htokens : r.tokens = t :: s.tokens)
    (hpassed : r.Passed s) : s.remaining + 2 = r.remaining := by
  rw [remaining, remaining, hpassed.resume, htokens, List.length_cons]
  omega

/-- Setting the flag adds one at most. -/
theorem remaining_set_le (r : Reader) :
    ({ r with resume := true } : Reader).remaining ≤ r.remaining + 1 := by
  show 2 * r.tokens.length + 1 ≤ _
  rw [remaining]
  omega

/-- Clearing the flag takes one. -/
theorem remaining_clear {r : Reader} (h : r.resume = true) :
    ({ r with resume := false } : Reader).remaining + 1 = r.remaining := by
  show 2 * r.tokens.length + 0 + 1 = _
  rw [remaining, h]
  rfl

end Reader

namespace Reading

/-! ## The procedures

One type for all procedures, so that one measure and one recursion can speak of all of them. -/

/-- The procedures that read the parts of a program. -/
inductive Procedure where
  | expressionAt (tier : Tier)
  | chain (tier : Tier) (left : Node)
  | callArguments
  | someArguments
  | condition
  | assignment
  | writing
  | reading
  | returning
  | guarded (word : Keyword)
  | block
  | statementList
  | statement
  | parameters
  | someParameters
  | declaration
  | declarations

namespace Procedure

/-- What a procedure reads. -/
@[reducible] def Result : Procedure → Type
  | .callArguments | .someArguments | .statementList | .parameters | .someParameters => List Node
  | .statement => Option Node
  | .declaration => String × Node
  | .declarations => List (String × Node)
  | _ => Node

/-- How far down a procedure is among those that call each other without taking a token in between. -/
def rank : Procedure → Nat
  | .expressionAt tier => tier.rank
  | .someArguments | .condition => 6
  | .callArguments => 7
  | .statementList => 2
  | .statement | .parameters | .declarations => 1
  | _ => 0

/-- By how much a procedure lowers what remains, at least. -/
def least : Procedure → Nat
  | .chain _ _ | .callArguments | .statementList | .statement | .parameters | .declarations => 0
  | _ => 1

/-- What goes down with every call. -/
def measure (p : Procedure) (r : Reader) : Nat := 8 * r.remaining + p.rank

/-- There are eight ranks, so a multiple of eight outweighs them. -/
theorem rank_le (p : Procedure) : p.rank ≤ 7 := by
  cases p with
  | expressionAt tier => exact Nat.le_trans tier.rank_le (by decide)
  | _ => exact Nat.le_of_ble_eq_true rfl

end Procedure

/-- A way of carrying out the procedures. -/
abbrev Carrier := (p : Procedure) → Reading p.Result

/-- What a procedure does, with its calls carried out by `call`. -/
def body (call : Carrier) : Carrier
  | .expressionAt .atom => do
    let r ← get
    match r.kind with
    | .symbol '(' => do
      advance
      let inner ← call (.expressionAt .maximum)
      symbol ')'
      pure inner
    | .number x => do
      advance
      pure (.leaf (.number x) r.line)
    | .text literal => do
      advance
      pure (.leaf (.text literal) r.line)
    | .identifier name => do
      advance
      let s ← get
      if s.kind = .symbol '(' then do
        advance
        let arguments ← call .callArguments
        symbol ')'
        pure ⟨.call name, arguments, r.line⟩
      else pure (.leaf (.identifier name) r.line)
    | other => fail r.line (.expectedOperand other.describe)
  | .expressionAt .power => do
    let base ← call (.expressionAt .atom)
    let r ← get
    match Tier.power.operator? r.kind with
    | some op => do
      advance
      let exponent ← call (.expressionAt .power)
      pure (.binary (.operator op) base exponent r.line)
    | none => pure base
  | .expressionAt tier => do
    let operand ← call (.expressionAt tier.tighter)
    call (.chain tier operand)
  | .chain tier left => do
    let r ← get
    match tier.operator? r.kind with
    | some op => do
      advance
      let right ← call (.expressionAt tier.tighter)
      call (.chain tier (.binary (.operator op) left right r.line))
    | none => pure left
  | .callArguments => do
    let r ← get
    if r.kind = .symbol ')' then pure [] else call .someArguments
  | .someArguments => do
    let argument ← call (.expressionAt .maximum)
    let r ← get
    if r.kind = .symbol ',' then do
      advance
      let more ← call .someArguments
      pure (argument :: more)
    else pure [argument]
  | .condition => do
    let left ← call (.expressionAt .maximum)
    let r ← get
    match ← comparator? with
    | some op => do
      advance
      let right ← call (.expressionAt .maximum)
      pure (.binary (.comparison op) left right r.line)
    | none => pure left
  | .assignment => do
    let r ← get
    let target ← identifierLeaf
    let s ← get
    if s.kind = .symbol '=' then do
      advance
      let value ← call (.expressionAt .maximum)
      pure (.binary .assign target value r.line)
    else fail s.line .malformedAssignment
  | .writing => do
    let r ← get
    keyword .writeValue
    symbol '('
    let operand ← call (.expressionAt .maximum)
    symbol ')'
    pure ⟨.write, [operand], r.line⟩
  | .reading => reading
  | .returning => do
    let r ← get
    keyword .returnValue
    let value ← call (.expressionAt .maximum)
    pure ⟨.returnValue, [value], r.line⟩
  | .guarded word => do
    keyword word
    symbol '('
    let test ← call .condition
    symbol ')'
    pure test
  | .block => do
    let r ← get
    symbol '\x7b'
    let s ← get
    let statements ← call .statementList
    symbol '\x7d'
    modify fun t => { t with resume := true }
    pure ⟨.block, [⟨.statements, statements, s.line⟩], r.line⟩
  | .statementList => do
    let first ← call .statement
    let r ← get
    if r.kind = .symbol ';' then do
      advance
      let more ← call .statementList
      pure (first.toList ++ more)
    else if r.resume then do
      modify fun s => { s with resume := false }
      let more ← call .statementList
      pure (first.toList ++ more)
    else pure first.toList
  | .statement => do
    let r ← get
    match r.kind with
    | .identifier _ => do
      let s ← call .assignment
      pure (some s)
    | .keyword .writeValue => do
      let s ← call .writing
      pure (some s)
    | .keyword .readValue => do
      let s ← call .reading
      pure (some s)
    | .keyword .returnValue => do
      let s ← call .returning
      pure (some s)
    | .keyword .whileLoop => do
      let test ← call (.guarded .whileLoop)
      let body ← call .block
      pure (some (.binary .whileLoop test body r.line))
    | .keyword .ifThen => do
      let test ← call (.guarded .ifThen)
      let consequence ← call .block
      let s ← get
      if s.kind = .keyword .elseThen then do
        advance
        let alternative ← call .block
        pure (some ⟨.ifThen, [test, consequence, alternative], r.line⟩)
      else pure (some (.binary .ifThen test consequence r.line))
    | .symbol '\x7b' => do
      let s ← call .block
      pure (some s)
    | _ => pure none
  | .parameters => do
    let r ← get
    match r.kind with
    | .identifier _ => call .someParameters
    | _ => pure []
  | .someParameters => do
    let parameter ← identifierLeaf
    let r ← get
    if r.kind = .symbol ',' then do
      advance
      let more ← call .someParameters
      pure (parameter :: more)
    else pure [parameter]
  | .declaration => do
    let r ← get
    keyword .function
    let name ← identifier
    symbol '('
    let names ← call .parameters
    symbol ')'
    let body ← call .block
    let s ← get
    modify fun t => { t with log := t.log.add (.declared name names.length) }
    pure (name, ⟨.function name, names ++ [appendStatement (finalReturn s.line) body], r.line⟩)
  | .declarations => do
    let r ← get
    if r.kind = .keyword .function then do
      let first ← call .declaration
      let more ← call .declarations
      pure (first :: more)
    else pure []

/-- The procedures with their fuel. -/
def run (n : Nat) : Carrier
  | .expressionAt tier => Reading.expressionAt n tier
  | .chain tier left => Reading.chain n tier left
  | .callArguments => Reading.callArguments n
  | .someArguments => Reading.someArguments n
  | .condition => Reading.condition n
  | .assignment => Reading.assignment n
  | .writing => Reading.writing n
  | .reading => Reading.reading
  | .returning => Reading.returning n
  | .guarded word => Reading.guarded word n
  | .block => Reading.block n
  | .statementList => Reading.statementList n
  | .statement => Reading.statement n
  | .parameters => Reading.parameters n
  | .someParameters => Reading.someParameters n
  | .declaration => Reading.declaration n
  | .declarations => Reading.declarations n

/-- **Each procedure does what its body says**, with one unit of fuel less at most. -/
theorem run_cases (n : Nat) (p : Procedure) :
    (n = 0 ∧ ∀ r, run n p r = .error .outOfFuel r) ∨
      ∃ k, n ≤ k + 1 ∧ run n p = body (run k) p := by
  cases n with
  | zero =>
    cases p with
    | condition | assignment | writing | reading | returning | guarded | parameters | declaration =>
      exact Or.inr ⟨0, Nat.zero_le _, rfl⟩
    | _ => exact Or.inl ⟨rfl, fun _ => rfl⟩
  | succ n =>
    cases p with
    | condition | assignment | writing | reading | returning | guarded | parameters | declaration =>
      exact Or.inr ⟨n + 1, Nat.le_succ _, rfl⟩
    | expressionAt tier => cases tier <;> exact Or.inr ⟨n, Nat.le_refl _, rfl⟩
    | _ => exact Or.inr ⟨n, Nat.le_refl _, rfl⟩

/-! ## Readings that come to the same

Two ways of carrying out a procedure are compared from one state, and the second is known to end
there. -/

variable {α β : Type}

/-- From `r` the reading `x` comes to the same as `y`, and that ends with `post`; or `x` runs out of
fuel, where that is excused. -/
def Agrees (excused : Prop) (x y : Reading α) (r : Reader) (post : α → Reader → Prop) : Prop :=
  (excused ∧ ∃ s, x r = .error .outOfFuel s) ∨ x r = y r ∧ Ends y r post

section Rules

variable {excused : Prop} {r : Reader} {post : α → Reader → Prop}

theorem Agrees.of_ends {x : Reading α} (h : Ends x r post) : Agrees excused x x r post :=
  Or.inr ⟨rfl, h⟩

theorem Agrees.pure {a : α} (h : post a r) :
    Agrees excused (Pure.pure a : Reading α) (Pure.pure a) r post :=
  .of_ends (.pure h)

/-- An error of the grammar is an end. -/
theorem Agrees.fail {line : Nat} {cause : Cause} :
    Agrees excused (Reading.fail line cause : Reading α) (Reading.fail line cause) r post :=
  .of_ends .fail

/-- One reading after another.  Where the first runs out of fuel both have, and that is excused. -/
theorem Agrees.bind {x y : Reading α} {f g : α → Reading β} {post' : β → Reader → Prop}
    (hx : Agrees excused x y r post) (hf : ∀ a s, post a s → Agrees excused (f a) (g a) s post') :
    Agrees excused (x >>= f) (y >>= g) r post' := by
  rcases hx with ⟨hexcused, s, hs⟩ | ⟨hsame, hends⟩
  · refine Or.inl ⟨hexcused, s, ?_⟩
    simp only [Bind.bind, EStateM.bind, hs]
  · unfold Agrees Ends at *
    simp only [Bind.bind, EStateM.bind, hsame]
    cases hy : y r with
    | ok a s =>
      rw [hy] at hends
      exact hf a s hends
    | error e s =>
      rw [hy] at hends
      exact Or.inr ⟨rfl, by cases e <;> trivial⟩

/-- More may be excused and less be claimed. -/
theorem Agrees.mono {excused' : Prop} {x y : Reading α} {post' : α → Reader → Prop}
    (h : Agrees excused x y r post) (hexcused : excused → excused')
    (hpost : ∀ a s, post a s → post' a s) : Agrees excused' x y r post' :=
  h.imp (fun h => ⟨hexcused h.1, h.2⟩) fun h => ⟨h.1, h.2.mono hpost⟩

/-- Only what the second reading does from `r` matters. -/
theorem Agrees.congr_right {x y y' : Reading α} (h : Agrees excused x y r post) (hy : y r = y' r) :
    Agrees excused x y' r post := by
  unfold Agrees Ends at h ⊢
  rwa [← hy]

theorem Agrees.get_bind {f g : Reader → Reading β} {post' : β → Reader → Prop}
    (h : Agrees excused (f r) (g r) r post') : Agrees excused (get >>= f) (get >>= g) r post' := h

/-- A change of the flag or of the log. -/
theorem Agrees.modify_bind {change : Reader → Reader} {f g : PUnit → Reading β}
    {post' : β → Reader → Prop} (h : Agrees excused (f ⟨⟩) (g ⟨⟩) (change r) post') :
    Agrees excused (modify change >>= f) (modify change >>= g) r post' := h

end Rules

/-! ## Readings of one token

These make no calls, so both ways are the same; what matters is by how much they lower what
remains. -/

/-- A reading that ends, ends with what a success comes to. -/
theorem Ends.of_yields {x : Reading α} {r : Reader} {p q : α → Reader → Prop} (hends : Ends x r p)
    (hyields : Yields x r q) : Ends x r q := by
  unfold Ends at hends ⊢
  cases hx : x r with
  | ok a s => exact hyields a s hx
  | error e s =>
    rw [hx] at hends
    cases e <;> trivial

section Steps

variable {excused : Prop} {r : Reader}

/-- A reading that takes the current token off. -/
theorem Agrees.of_taken {x : Reading α} {post : α → Reader → Prop} {token : α → Token}
    (hends : Ends x r post)
    (hyields : Yields x r fun a s => r.tokens = token a :: s.tokens ∧ r.Passed s) :
    Agrees excused x x r fun _ s => s.remaining + 2 = r.remaining :=
  .of_ends (hends.of_yields (hyields.mono fun _ _ hs => Reader.remaining_add_two hs.1 hs.2))

theorem Agrees.advance (h : r.kind ≠ .finish) :
    Agrees excused Reading.advance Reading.advance r fun _ s => s.remaining + 2 = r.remaining :=
  .of_taken (Ends.advance h) (Yields.advance rfl h)

theorem Agrees.symbol {c : Char} :
    Agrees excused (Reading.symbol c) (Reading.symbol c) r
      fun _ s => s.remaining + 2 = r.remaining :=
  .of_taken Ends.symbol Yields.symbol

theorem Agrees.keyword {word : Keyword} :
    Agrees excused (Reading.keyword word) (Reading.keyword word) r
      fun _ s => s.remaining + 2 = r.remaining :=
  .of_taken Ends.keyword Yields.keyword

theorem Agrees.identifier :
    Agrees excused Reading.identifier Reading.identifier r
      fun _ s => s.remaining + 2 = r.remaining :=
  .of_taken Ends.identifier Yields.identifier

theorem Agrees.identifierLeaf :
    Agrees excused Reading.identifierLeaf Reading.identifierLeaf r
      fun _ s => s.remaining + 2 = r.remaining :=
  .get_bind (.bind .identifier fun _ _ hs => .pure hs)

/-- A comparison may take its first token; the one it leaves is not the end marker. -/
theorem Agrees.comparator? :
    Agrees excused Reading.comparator? Reading.comparator? r
      fun op s => s.remaining ≤ r.remaining ∧ (op.isSome → s.kind ≠ .finish) := by
  refine .get_bind ?_
  split
  · next hk => exact .pure ⟨Nat.le_refl _, fun _ => by simp [hk]⟩
  · next hk => exact .pure ⟨Nat.le_refl _, fun _ => by simp [hk]⟩
  · next hk => exact .pure ⟨Nat.le_refl _, fun _ => by simp [hk]⟩
  · next hk =>
    refine .bind (.advance (by simp [hk])) fun _ s hs => .get_bind ?_
    split
    · next hs' => exact .pure ⟨by omega, fun _ => by simp [hs']⟩
    · exact .of_ends .unexpected
  · exact .pure ⟨Nat.le_refl _, fun h => by simp at h⟩

end Steps

/-! ## The body, given the calls

One lemma for each procedure.  The numbers in them are what is left of the measure at each call. -/

/-- Carried out by `call` and by `call'`, a procedure comes to the same, and lowers what remains. -/
def Procedure.Agrees (excused : Prop) (call call' : Carrier) (p : Procedure) (r : Reader) : Prop :=
  Reading.Agrees excused (call p) (call' p) r fun _ s => s.remaining + p.least ≤ r.remaining

/-- All procedures come to the same where the measure is smaller than that of `p` in `r`. -/
def AgreesBelow (excused : Prop) (call call' : Carrier) (p : Procedure) (r : Reader) : Prop :=
  ∀ q s, q.measure s < p.measure r → Procedure.Agrees excused call call' q s

section Bodies

variable {excused : Prop} {call call' : Carrier} {p : Procedure} {r : Reader}

/-- A call of a procedure of lower rank, from the start. -/
theorem AgreesBelow.of_rank_lt (h : AgreesBelow excused call call' p r) (q : Procedure)
    (hrank : q.rank < p.rank) : Procedure.Agrees excused call call' q r :=
  h q r (Nat.add_lt_add_left hrank _)

/-- A call of any procedure, after something has been taken. -/
theorem AgreesBelow.of_remaining_lt (h : AgreesBelow excused call call' p r) (q : Procedure)
    {s : Reader} (hlt : s.remaining < r.remaining) : Procedure.Agrees excused call call' q s := by
  refine h q s ?_
  have hrank := q.rank_le
  unfold Procedure.measure
  omega

/-- A tier that groups from the left: an operand, and what follows it. -/
theorem agrees_grouped {tier : Tier} (htier : tier.tighter.rank < tier.rank)
    (h : AgreesBelow excused call call' (.expressionAt tier) r) :
    Agrees excused (do let operand ← call (.expressionAt tier.tighter); call (.chain tier operand))
      (do let operand ← call' (.expressionAt tier.tighter); call' (.chain tier operand)) r
      fun _ s => s.remaining + 1 ≤ r.remaining := by
  refine .bind (h.of_rank_lt (.expressionAt tier.tighter) htier)
    fun operand s (hs : s.remaining + 1 ≤ r.remaining) => ?_
  refine (h.of_remaining_lt (.chain tier operand) hs).mono id
    fun _ t (ht : t.remaining ≤ s.remaining) => ?_
  omega

/-- A power calls the atoms, which are further down, and for its exponent itself, behind a sign. -/
theorem agrees_power (h : AgreesBelow excused call call' (.expressionAt .power) r) :
    Procedure.Agrees excused (body call) (body call') (.expressionAt .power) r := by
  refine .bind (h.of_rank_lt (.expressionAt .atom) (by decide))
    fun base s (hs : s.remaining + 1 ≤ r.remaining) => .get_bind ?_
  split
  · next op hop =>
    refine .bind (.advance (Tier.ne_finish_of_operator? hop)) fun _ t ht => ?_
    refine .bind (h.of_remaining_lt (.expressionAt .power) (by omega))
      fun _ u (hu : u.remaining + 1 ≤ t.remaining) => ?_
    exact .pure (show u.remaining + 1 ≤ r.remaining by omega)
  · exact .pure hs

/-- An atom calls an expression of the loosest tier only behind a parenthesis. -/
theorem agrees_atom (h : AgreesBelow excused call call' (.expressionAt .atom) r) :
    Procedure.Agrees excused (body call) (body call') (.expressionAt .atom) r := by
  -- a single token
  have hleaf : ∀ {t : Node}, r.kind ≠ .finish →
      Agrees excused (do advance; pure t) (do advance; pure t) r
        fun _ s => s.remaining + 1 ≤ r.remaining :=
    fun hk => .bind (.advance hk) fun _ s hs => .pure (by omega)
  refine .get_bind ?_
  split
  · -- in parentheses
    next hk =>
    refine .bind (.advance (by simp [hk])) fun _ s hs => ?_
    refine .bind (h.of_remaining_lt (.expressionAt .maximum) (by omega))
      fun inner t (ht : t.remaining + 1 ≤ s.remaining) => ?_
    refine .bind .symbol fun _ u hu => ?_
    exact .pure (show u.remaining + 1 ≤ r.remaining by omega)
  · next hk => exact hleaf (by simp [hk])
  · next hk => exact hleaf (by simp [hk])
  · -- a name, or a call of it
    next hk =>
    refine .bind (.advance (by simp [hk])) fun _ s hs => .get_bind ?_
    split
    · next hp =>
      refine .bind (.advance (by simp [hp])) fun _ t ht => ?_
      refine .bind (h.of_remaining_lt .callArguments (by omega))
        fun arguments u (hu : u.remaining ≤ t.remaining) => ?_
      refine .bind .symbol fun _ v hv => ?_
      exact .pure (show v.remaining + 1 ≤ r.remaining by omega)
    · exact .pure (show s.remaining + 1 ≤ r.remaining by omega)
  · exact .fail

/-- A chain calls what it calls behind a sign, so no rank matters. -/
theorem agrees_chain {tier : Tier} {left : Node}
    (h : AgreesBelow excused call call' (.chain tier left) r) :
    Procedure.Agrees excused (body call) (body call') (.chain tier left) r := by
  refine .get_bind ?_
  split
  · next op hop =>
    refine .bind (.advance (Tier.ne_finish_of_operator? hop)) fun _ s hs => ?_
    refine .bind (h.of_remaining_lt (.expressionAt tier.tighter) (by omega))
      fun right t (ht : t.remaining + 1 ≤ s.remaining) => ?_
    refine (h.of_remaining_lt (.chain tier _) (by omega)).mono id
      fun _ u (hu : u.remaining ≤ t.remaining) => ?_
    show u.remaining ≤ r.remaining
    omega
  · exact .pure (Nat.le_refl _)

/-- The arguments are looked for at the first token of them, so the rank goes down. -/
theorem agrees_callArguments (h : AgreesBelow excused call call' .callArguments r) :
    Procedure.Agrees excused (body call) (body call') .callArguments r := by
  refine .get_bind ?_
  split
  · exact .pure (Nat.le_refl _)
  · exact (h.of_rank_lt .someArguments (by decide)).mono id
      fun _ s (hs : s.remaining + 1 ≤ r.remaining) => Nat.le_of_succ_le hs

/-- An argument is an expression at the same token; further arguments stand behind a comma. -/
theorem agrees_someArguments (h : AgreesBelow excused call call' .someArguments r) :
    Procedure.Agrees excused (body call) (body call') .someArguments r := by
  refine .bind (h.of_rank_lt (.expressionAt .maximum) (by decide))
    fun argument s (hs : s.remaining + 1 ≤ r.remaining) => .get_bind ?_
  split
  · next hk =>
    refine .bind (.advance (by simp [hk])) fun _ t ht => ?_
    refine .bind (h.of_remaining_lt .someArguments (by omega))
      fun more u (hu : u.remaining + 1 ≤ t.remaining) => ?_
    exact .pure (show u.remaining + 1 ≤ r.remaining by omega)
  · exact .pure hs

/-- The left side begins at the same token, the right side behind the sign of comparison. -/
theorem agrees_condition (h : AgreesBelow excused call call' .condition r) :
    Procedure.Agrees excused (body call) (body call') .condition r := by
  refine .bind (h.of_rank_lt (.expressionAt .maximum) (by decide))
    fun left s (hs : s.remaining + 1 ≤ r.remaining) => .get_bind ?_
  refine .bind .comparator? fun op t ht => ?_
  cases op with
  | none => exact .pure (show t.remaining + 1 ≤ r.remaining by omega)
  | some op =>
    refine .bind (.advance (ht.2 rfl)) fun _ u hu => ?_
    refine .bind (h.of_remaining_lt (.expressionAt .maximum) (by omega))
      fun right v (hv : v.remaining + 1 ≤ u.remaining) => ?_
    exact .pure (show v.remaining + 1 ≤ r.remaining by omega)

/-- The value stands behind a name and a sign. -/
theorem agrees_assignment (h : AgreesBelow excused call call' .assignment r) :
    Procedure.Agrees excused (body call) (body call') .assignment r := by
  refine .get_bind (.bind .identifierLeaf fun target s hs => .get_bind ?_)
  split
  · next hk =>
    refine .bind (.advance (by simp [hk])) fun _ t ht => ?_
    refine .bind (h.of_remaining_lt (.expressionAt .maximum) (by omega))
      fun value u (hu : u.remaining + 1 ≤ t.remaining) => ?_
    exact .pure (show u.remaining + 1 ≤ r.remaining by omega)
  · exact .fail

/-- The value stands behind a word and a parenthesis. -/
theorem agrees_writing (h : AgreesBelow excused call call' .writing r) :
    Procedure.Agrees excused (body call) (body call') .writing r := by
  refine .get_bind (.bind .keyword fun _ s hs => ?_)
  refine .bind .symbol fun _ t ht => ?_
  refine .bind (h.of_remaining_lt (.expressionAt .maximum) (by omega))
    fun operand u (hu : u.remaining + 1 ≤ t.remaining) => ?_
  refine .bind .symbol fun _ v hv => ?_
  exact .pure (show v.remaining + 1 ≤ r.remaining by omega)

theorem agrees_reading : Procedure.Agrees excused (body call) (body call') .reading r := by
  refine .get_bind (.bind .keyword fun _ s hs => ?_)
  refine .bind .symbol fun _ t ht => ?_
  refine .bind .identifierLeaf fun target u hu => ?_
  refine .bind .symbol fun _ v hv => ?_
  exact .pure (show v.remaining + 1 ≤ r.remaining by omega)

theorem agrees_returning (h : AgreesBelow excused call call' .returning r) :
    Procedure.Agrees excused (body call) (body call') .returning r := by
  refine .get_bind (.bind .keyword fun _ s hs => ?_)
  refine .bind (h.of_remaining_lt (.expressionAt .maximum) (by omega))
    fun value t (ht : t.remaining + 1 ≤ s.remaining) => ?_
  exact .pure (show t.remaining + 1 ≤ r.remaining by omega)

/-- The condition stands behind a word and a parenthesis. -/
theorem agrees_guarded {word : Keyword} (h : AgreesBelow excused call call' (.guarded word) r) :
    Procedure.Agrees excused (body call) (body call') (.guarded word) r := by
  refine .bind .keyword fun _ s hs => ?_
  refine .bind .symbol fun _ t ht => ?_
  refine .bind (h.of_remaining_lt .condition (by omega))
    fun test u (hu : u.remaining + 1 ≤ t.remaining) => ?_
  refine .bind .symbol fun _ v hv => ?_
  exact .pure (show v.remaining + 1 ≤ r.remaining by omega)

/-- The flag that is set at the end weighs less than the braces. -/
theorem agrees_block (h : AgreesBelow excused call call' .block r) :
    Procedure.Agrees excused (body call) (body call') .block r := by
  refine .get_bind (.bind .symbol fun _ s hs => .get_bind ?_)
  refine .bind (h.of_remaining_lt .statementList (by omega))
    fun statements t (ht : t.remaining ≤ s.remaining) => ?_
  refine .bind .symbol fun _ u hu => .modify_bind ?_
  have hset := u.remaining_set_le
  exact .pure (show ({ u with resume := true } : Reader).remaining + 1 ≤ r.remaining by omega)

/-- A round of a list takes a semicolon, or else it clears the flag. -/
theorem agrees_statementList (h : AgreesBelow excused call call' .statementList r) :
    Procedure.Agrees excused (body call) (body call') .statementList r := by
  refine .bind (h.of_rank_lt .statement (by decide))
    fun first s (hs : s.remaining ≤ r.remaining) => .get_bind ?_
  split
  · next hk =>
    refine .bind (.advance (by simp [hk])) fun _ t ht => ?_
    refine .bind (h.of_remaining_lt .statementList (by omega))
      fun more u (hu : u.remaining ≤ t.remaining) => ?_
    exact .pure (show u.remaining ≤ r.remaining by omega)
  split
  · next hresume =>
    have hclear := Reader.remaining_clear hresume
    refine .modify_bind (.bind (h.of_remaining_lt .statementList (by omega))
      fun more u (hu : u.remaining ≤ ({ s with resume := false } : Reader).remaining) => ?_)
    exact .pure (show u.remaining ≤ r.remaining by omega)
  · exact .pure hs

/-- A statement calls the procedure its first token asks for, at that token; a choice may go on
with another block. -/
theorem agrees_statement (h : AgreesBelow excused call call' .statement r) :
    Procedure.Agrees excused (body call) (body call') .statement r := by
  refine .get_bind ?_
  split
  · exact .bind (h.of_rank_lt .assignment (by decide))
      fun _ s (hs : s.remaining + 1 ≤ r.remaining) => .pure (Nat.le_of_succ_le hs)
  · exact .bind (h.of_rank_lt .writing (by decide))
      fun _ s (hs : s.remaining + 1 ≤ r.remaining) => .pure (Nat.le_of_succ_le hs)
  · exact .bind (h.of_rank_lt .reading (by decide))
      fun _ s (hs : s.remaining + 1 ≤ r.remaining) => .pure (Nat.le_of_succ_le hs)
  · exact .bind (h.of_rank_lt .returning (by decide))
      fun _ s (hs : s.remaining + 1 ≤ r.remaining) => .pure (Nat.le_of_succ_le hs)
  · -- a loop
    refine .bind (h.of_rank_lt (.guarded .whileLoop) (by decide))
      fun test s (hs : s.remaining + 1 ≤ r.remaining) => ?_
    refine .bind (h.of_remaining_lt .block hs)
      fun body t (ht : t.remaining + 1 ≤ s.remaining) => ?_
    exact .pure (show t.remaining ≤ r.remaining by omega)
  · -- a choice
    refine .bind (h.of_rank_lt (.guarded .ifThen) (by decide))
      fun test s (hs : s.remaining + 1 ≤ r.remaining) => ?_
    refine .bind (h.of_remaining_lt .block hs)
      fun consequence t (ht : t.remaining + 1 ≤ s.remaining) => .get_bind ?_
    split
    · next hk =>
      refine .bind (.advance (by simp [hk])) fun _ u hu => ?_
      refine .bind (h.of_remaining_lt .block (by omega))
        fun alternative v (hv : v.remaining + 1 ≤ u.remaining) => ?_
      exact .pure (show v.remaining ≤ r.remaining by omega)
    · exact .pure (show t.remaining ≤ r.remaining by omega)
  · exact .bind (h.of_rank_lt .block (by decide))
      fun _ s (hs : s.remaining + 1 ≤ r.remaining) => .pure (Nat.le_of_succ_le hs)
  · exact .pure (Nat.le_refl _)

/-- The parameters are looked for at the first token of them. -/
theorem agrees_parameters (h : AgreesBelow excused call call' .parameters r) :
    Procedure.Agrees excused (body call) (body call') .parameters r := by
  refine .get_bind ?_
  split
  · exact (h.of_rank_lt .someParameters (by decide)).mono id
      fun _ s (hs : s.remaining + 1 ≤ r.remaining) => Nat.le_of_succ_le hs
  · exact .pure (Nat.le_refl _)

theorem agrees_someParameters (h : AgreesBelow excused call call' .someParameters r) :
    Procedure.Agrees excused (body call) (body call') .someParameters r := by
  refine .bind .identifierLeaf fun parameter s hs => .get_bind ?_
  split
  · next hk =>
    refine .bind (.advance (by simp [hk])) fun _ t ht => ?_
    refine .bind (h.of_remaining_lt .someParameters (by omega))
      fun more u (hu : u.remaining + 1 ≤ t.remaining) => ?_
    exact .pure (show u.remaining + 1 ≤ r.remaining by omega)
  · exact .pure (show s.remaining + 1 ≤ r.remaining by omega)

/-- Parameters and body stand behind the word, the name and a parenthesis. -/
theorem agrees_declaration (h : AgreesBelow excused call call' .declaration r) :
    Procedure.Agrees excused (body call) (body call') .declaration r := by
  refine .get_bind (.bind .keyword fun _ s hs => ?_)
  refine .bind .identifier fun name t ht => ?_
  refine .bind .symbol fun _ u hu => ?_
  refine .bind (h.of_remaining_lt .parameters (by omega))
    fun names v (hv : v.remaining ≤ u.remaining) => ?_
  refine .bind .symbol fun _ w hw => ?_
  refine .bind (h.of_remaining_lt .block (by omega))
    fun block x (hx : x.remaining + 1 ≤ w.remaining) => .get_bind (.modify_bind ?_)
  exact .pure (show x.remaining + 1 ≤ r.remaining by omega)

/-- A declaration is read at its first token, the others behind it. -/
theorem agrees_declarations (h : AgreesBelow excused call call' .declarations r) :
    Procedure.Agrees excused (body call) (body call') .declarations r := by
  refine .get_bind ?_
  split
  · refine .bind (h.of_rank_lt .declaration (by decide))
      fun first s (hs : s.remaining + 1 ≤ r.remaining) => ?_
    refine .bind (h.of_remaining_lt .declarations hs)
      fun more t (ht : t.remaining ≤ s.remaining) => ?_
    exact .pure (show t.remaining ≤ r.remaining by omega)
  · exact .pure (Nat.le_refl _)

/-- **What a procedure comes to depends only on calls of a smaller measure.** -/
theorem body_agrees (h : AgreesBelow excused call call' p r) :
    Procedure.Agrees excused (body call) (body call') p r := by
  -- one lemma for each procedure; those that join operands are one procedure with their tier
  cases p with
  | expressionAt tier =>
    cases tier with
    | maximum => exact agrees_grouped (by decide) h
    | sum => exact agrees_grouped (by decide) h
    | product => exact agrees_grouped (by decide) h
    | power => exact agrees_power h
    | atom => exact agrees_atom h
  | chain => exact agrees_chain h
  | callArguments => exact agrees_callArguments h
  | someArguments => exact agrees_someArguments h
  | condition => exact agrees_condition h
  | assignment => exact agrees_assignment h
  | writing => exact agrees_writing h
  | reading => exact agrees_reading
  | returning => exact agrees_returning h
  | guarded => exact agrees_guarded h
  | block => exact agrees_block h
  | statementList => exact agrees_statementList h
  | statement => exact agrees_statement h
  | parameters => exact agrees_parameters h
  | someParameters => exact agrees_someParameters h
  | declaration => exact agrees_declaration h
  | declarations => exact agrees_declarations h

end Bodies

end Reading
end Scriptlet
