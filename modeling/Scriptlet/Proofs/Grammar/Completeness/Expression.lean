import Scriptlet.Grammar.Expression
import Scriptlet.Proofs.Grammar.Rules
import Scriptlet.Proofs.Grammar.Tokens

/-!
What is derivable is read: expressions and conditions.

Two things make a derivation more than a run of the reader.  The grammar does not say where an
expression ends, while the reader goes on as long as it can: so each expression comes with a
condition on the token behind it (`Tier.StopsBefore`), and the rules that put one expression before
something else guarantee it.  And a tier that groups from the left is derived from its left operand,
while the reader starts at the first operand and folds what follows: so of such a tier it is shown
that reading it *comes to the chain* that goes on behind the operand (`Continues`), whatever stands
there.  An expression that nothing continues is then read because its chain is empty.

Each rule of the grammar has its lemma, from what holds of the parts to what holds of the whole; the
induction over derivations only puts them together (`reads_expression`).  The fuel is that of
`ends_of_fuel`, which also says that tokens are used up.

A tier has its own condition on what may follow.  Behind an expression of the loosest tier there is no
sign of an operator at all; behind one of a tighter tier there may be signs of the looser ones, which
the reader leaves alone.  So if nothing continues an expression of some tier, nothing continues one of
a tighter one, and the condition can be handed down to the operand on the right
(`StopsBefore.tighter`).
-/

namespace Scriptlet

open Grammar

/-! ## Where an expression ends

The reader takes an operator wherever it sees one, so what follows an expression must not begin
with one that the tier would take. -/

/-- A token that does not continue an expression of the tier. -/
def Tier.StopsAt (tier : Tier) (kind : Token.Kind) : Prop :=
  kind ≠ .symbol '(' ∧ ∀ other : Tier, other.rank ≤ tier.rank → other.operator? kind = none

/-- The tokens start with one that does not continue an expression of the tier. -/
def Tier.StopsBefore (tier : Tier) : List Token → Prop
  | [] => True
  | t :: _ => tier.StopsAt t.kind

namespace Tier

theorem rank_tighter_le (tier : Tier) : tier.tighter.rank ≤ tier.rank := by
  cases tier <;> decide

/-- What continues no expression of a tier continues none of a tighter one. -/
theorem StopsBefore.tighter {tier : Tier} {ts : List Token} (h : tier.StopsBefore ts) :
    tier.tighter.StopsBefore ts := by
  cases ts with
  | nil => trivial
  | cons t ts =>
    exact ⟨h.1, fun other hother => h.2 other (Nat.le_trans hother tier.rank_tighter_le)⟩

/-- An operator that joins operands of a tier does not continue its right operand. -/
theorem stopsAt_of_joins {tier next : Tier} {c : Char} {op : Operator} (h : Joins tier c op next) :
    next = tier.tighter ∧ next.StopsAt (.symbol c) ∧ tier.operator? (.symbol c) = some op := by
  cases h <;> refine ⟨rfl, ⟨by decide, fun other hother => ?_⟩, rfl⟩ <;> cases other <;>
    first | rfl | exact absurd hother (by decide)

/-- The symbols that stand in no expression. -/
theorem maximum_stopsAt_symbol {c : Char}
    (hc : c ∈ [')', ',', ';', '\x7b', '\x7d', '>', '<', '?', '=']) :
    Tier.maximum.StopsAt (.symbol c) := by
  simp only [List.mem_cons, List.not_mem_nil, or_false] at hc
  rcases hc with rfl | rfl | rfl | rfl | rfl | rfl | rfl | rfl | rfl <;>
    exact ⟨by decide, fun other _ => by cases other <;> rfl⟩

/-- Whatever is no symbol stands in no expression behind an operand. -/
theorem maximum_stopsAt_of_not_symbol {kind : Token.Kind} (h : ∀ c, kind ≠ .symbol c) :
    Tier.maximum.StopsAt kind := by
  refine ⟨h '(', fun other _ => ?_⟩
  cases kind with
  | symbol c => exact absurd rfl (h c)
  | _ => rfl

end Tier

namespace Reading

/-! ## The parts of an expression

One lemma for each rule of the grammar. -/

/-- The reader takes `ts` for an expression of the tier, with the tree `t`, up to `rest`. -/
def Reads (tier : Tier) (ts : List Token) (t : Node) (rest : List Token) : Prop :=
  ∀ r b n, r.Sees b ts → tier.StopsBefore rest → 6 * r.left + tier.rank ≤ n →
    ∃ s, expressionAt n tier r = .ok t s ∧ s.Sees b rest

/-- The reader takes `ts` for an operand `t` of the tier, and goes on with the chain at `rest`. -/
def Continues (tier : Tier) (ts : List Token) (t : Node) (rest : List Token) : Prop :=
  ∀ r b n, r.Sees b ts → tier.tighter.StopsBefore rest → 6 * r.left + tier.rank ≤ n →
    ∃ m s, expressionAt n tier r = chain m tier t s ∧ s.Sees b rest ∧ 6 * s.left + 1 ≤ m

/-- The reader takes `ts` for the arguments of a call, up to the parenthesis. -/
def ReadsArguments (ts : List Token) (arguments : List Node) (rest : List Token) : Prop :=
  ∀ r b n close us, r.Sees b ts → rest = ⟨.symbol ')', close⟩ :: us → 6 * r.left + 7 ≤ n →
    ∃ s, callArguments n r = .ok arguments s ∧ s.Sees b rest

/-- The reader takes `ts` for one argument or more, up to the parenthesis. -/
def ReadsSome (ts : List Token) (arguments : List Node) (rest : List Token) : Prop :=
  ∀ r b n close us, r.Sees b ts → rest = ⟨.symbol ')', close⟩ :: us → 6 * r.left + 6 ≤ n →
    ∃ s, someArguments n r = .ok arguments s ∧ s.Sees b rest

/-- What `Reads` says, with the tokens used up. -/
theorem Reads.run {tier : Tier} {ts rest : List Token} {t : Node} (h : Reads tier ts t rest)
    {r : Reader} {b : Bool} {n : Nat} (hr : r.Sees b ts) (hstop : tier.StopsBefore rest)
    (hn : 6 * r.left + tier.rank ≤ n) :
    ∃ s, expressionAt n tier r = .ok t s ∧ s.Sees b rest ∧ s.left < r.left := by
  obtain ⟨s, hs, hsees⟩ := h r b n hr hstop hn
  exact ⟨s, hs, hsees, Ends.of_ok ((ends_of_fuel n).1 tier r hn) hs⟩

/-- There is fuel for the first call. -/
theorem exists_succ {tier : Tier} {left n : Nat} (h : 6 * left + tier.rank ≤ n) :
    ∃ m, n = m + 1 ∧ 6 * left + tier.rank ≤ m + 1 := by
  have hpos : 0 < tier.rank := by cases tier <;> decide
  exact ⟨n - 1, by omega, by omega⟩

theorem reads_number {x : Float} {line : Nat} {rest : List Token} :
    Reads .atom (⟨.number x, line⟩ :: rest) (.leaf (.number x) line) rest := by
  intro r b n hr _ hn
  obtain ⟨n, rfl, -⟩ := exists_succ hn
  obtain ⟨s, hs, hsees, -⟩ := advance_of_sees hr (by simp)
  refine ⟨s, ?_, hsees⟩
  rw [expressionAt, get_bind_apply, hr.current.1, hr.current.2]
  exact bind_of_ok hs

theorem reads_text {literal : String} {line : Nat} {rest : List Token} :
    Reads .atom (⟨.text literal, line⟩ :: rest) (.leaf (.text literal) line) rest := by
  intro r b n hr _ hn
  obtain ⟨n, rfl, -⟩ := exists_succ hn
  obtain ⟨s, hs, hsees, -⟩ := advance_of_sees hr (by simp)
  refine ⟨s, ?_, hsees⟩
  rw [expressionAt, get_bind_apply, hr.current.1, hr.current.2]
  exact bind_of_ok hs

/-- A name is a variable where no parenthesis follows. -/
theorem reads_name {name : String} {line : Nat} {rest : List Token} :
    Reads .atom (⟨.identifier name, line⟩ :: rest) (.leaf (.identifier name) line) rest := by
  intro r b n hr hstop hn
  obtain ⟨n, rfl, -⟩ := exists_succ hn
  obtain ⟨s, hs, hsees, -⟩ := advance_of_sees hr (by simp)
  refine ⟨s, ?_, hsees⟩
  obtain ⟨t, us, rfl⟩ := hsees.exists_cons
  have hk : s.kind ≠ .symbol '(' := by
    rw [hsees.current.1]
    exact hstop.1
  rw [expressionAt, get_bind_apply, hr.current.1, hr.current.2]
  show (advance >>= _) r = _
  rw [bind_of_ok hs, get_bind_apply, if_neg hk]
  rfl

/-- An expression in parentheses is one whatever follows, since the closing one ends it. -/
theorem reads_parentheses {line close : Nat} {ts rest : List Token} {t : Node}
    (inner : Reads .maximum ts t (⟨.symbol ')', close⟩ :: rest)) :
    Reads .atom (⟨.symbol '(', line⟩ :: ts) t rest := by
  intro r b n hr _ hn
  obtain ⟨n, rfl, hn⟩ := exists_succ hn
  simp only [Tier.rank] at hn
  obtain ⟨s, hs, hsees, hleft⟩ := advance_of_sees hr (by simp)
  obtain ⟨u, hu, husees, -⟩ := inner.run (n := n) hsees (Tier.maximum_stopsAt_symbol (by simp))
    (by simp only [Tier.rank]; omega)
  obtain ⟨v, hv, hvsees, -⟩ := symbol_of_sees husees
  refine ⟨v, ?_, hvsees⟩
  rw [expressionAt, get_bind_apply, hr.current.1]
  show (advance >>= _) r = _
  rw [bind_of_ok hs, bind_of_ok hu, bind_of_ok hv]
  rfl

theorem reads_call {name : String} {line opening close : Nat} {ts rest : List Token}
    {arguments : List Node} (inner : ReadsArguments ts arguments (⟨.symbol ')', close⟩ :: rest)) :
    Reads .atom (⟨.identifier name, line⟩ :: ⟨.symbol '(', opening⟩ :: ts)
      ⟨.call name, arguments, line⟩ rest := by
  intro r b n hr _ hn
  obtain ⟨n, rfl, hn⟩ := exists_succ hn
  simp only [Tier.rank] at hn
  obtain ⟨s, hs, hsees, hleft⟩ := advance_of_sees hr (by simp)
  obtain ⟨t, ht, htsees, hleft'⟩ := advance_of_sees hsees (by simp)
  obtain ⟨u, hu, husees⟩ := inner t b n close rest htsees rfl (by omega)
  obtain ⟨v, hv, hvsees, -⟩ := symbol_of_sees husees
  refine ⟨v, ?_, hvsees⟩
  rw [expressionAt, get_bind_apply, hr.current.1, hr.current.2]
  show (advance >>= _) r = _
  rw [bind_of_ok hs, get_bind_apply, if_pos hsees.current.1, bind_of_ok ht, bind_of_ok hu,
    bind_of_ok hv]
  rfl

/-- A power is read to the end of its exponent, which is a power itself. -/
theorem reads_power {line : Nat} {ts us rest : List Token} {base exponent : Node}
    (left : Reads .atom ts base (⟨.symbol '^', line⟩ :: us))
    (right : Reads .power us exponent rest) :
    Reads .power ts (.binary (.operator .power) base exponent line) rest := by
  intro r b n hr hstop hn
  obtain ⟨n, rfl, hn⟩ := exists_succ hn
  simp only [Tier.rank] at hn
  have hsign : Tier.atom.StopsAt (.symbol '^') :=
    ⟨by decide, fun other h => by cases other <;> first | rfl | exact absurd h (by decide)⟩
  obtain ⟨s, hs, hsees, hleft⟩ := left.run (n := n) hr hsign (by simp only [Tier.rank]; omega)
  obtain ⟨t, ht, htsees, hleft'⟩ := advance_of_sees hsees (by simp)
  obtain ⟨u, hu, husees, -⟩ := right.run (n := n) htsees hstop (by simp only [Tier.rank]; omega)
  refine ⟨u, ?_, husees⟩
  rw [expressionAt, bind_of_ok hs, get_bind_apply, hsees.current.1, hsees.current.2]
  show (advance >>= _) s = _
  rw [bind_of_ok ht, bind_of_ok hu]
  rfl

/-- An atom is a power where no `^` follows. -/
theorem reads_base {ts rest : List Token} {t : Node} (inner : Reads .atom ts t rest) :
    Reads .power ts t rest := by
  intro r b n hr hstop hn
  obtain ⟨n, rfl, hn⟩ := exists_succ hn
  simp only [Tier.rank] at hn
  obtain ⟨s, hs, hsees, -⟩ := inner.run (n := n) hr hstop.tighter (by simp only [Tier.rank]; omega)
  refine ⟨s, ?_, hsees⟩
  obtain ⟨next, us, rfl⟩ := hsees.exists_cons
  rw [expressionAt, bind_of_ok hs, get_bind_apply, hsees.current.1,
    hstop.2 .power (Nat.le_refl _)]
  rfl

/-! ## Tiers that group from the left

The derivation has the last operator at its root, the reader begins with the first operand. -/

/-- How an expression of such a tier is read. -/
theorem expressionAt_of_joins {tier next : Tier} {c : Char} {op : Operator}
    (h : Joins tier c op next) (n : Nat) :
    expressionAt (n + 1) tier = (do
      let operand ← expressionAt n tier.tighter
      chain n tier operand) := by
  cases h <;> rfl

/-- The first operand. -/
theorem continues_operand {tier next : Tier} {c : Char} {op : Operator} {ts rest : List Token}
    {t : Node} (h : Joins tier c op next) (inner : Reads tier.tighter ts t rest) :
    Continues tier ts t rest := by
  intro r b n hr hstop hn
  obtain ⟨n, rfl, hn⟩ := exists_succ hn
  have hrank : tier.tighter.rank + 1 ≤ tier.rank := by cases h <;> decide
  obtain ⟨s, hs, hsees, hleft⟩ := inner.run (n := n) hr hstop (by omega)
  refine ⟨n, s, ?_, hsees, by omega⟩
  rw [expressionAt_of_joins h, bind_of_ok hs]

/-- One more operand. -/
theorem continues_joined {tier next : Tier} {c : Char} {op : Operator} {line : Nat}
    {ts us rest : List Token} {l r : Node} (h : Joins tier c op next)
    (left : Continues tier ts l (⟨.symbol c, line⟩ :: us)) (right : Reads next us r rest) :
    Continues tier ts (.binary (.operator op) l r line) rest := by
  obtain ⟨rfl, hstops, hop⟩ := Tier.stopsAt_of_joins h
  intro r₀ b n hr hstop hn
  obtain ⟨m, s, hs, hsees, hm⟩ := left r₀ b n hr hstops hn
  obtain ⟨k, rfl⟩ : ∃ k, m = k + 1 := ⟨m - 1, by omega⟩
  obtain ⟨t, ht, htsees, hleft⟩ := advance_of_sees hsees (by simp)
  have hrank := tier.tighter.rank_le
  obtain ⟨u, hu, husees, hleft'⟩ := right.run (n := k) htsees hstop (by omega)
  refine ⟨k, u, ?_, husees, by omega⟩
  rw [hs, chain, get_bind_apply, hsees.current.1, hop, hsees.current.2]
  show (advance >>= _) s = _
  rw [bind_of_ok ht, bind_of_ok hu]

/-- Where nothing continues the chain, it ends. -/
theorem Continues.reads {tier : Tier} {ts rest : List Token} {t : Node}
    (h : Continues tier ts t rest) : Reads tier ts t rest := by
  intro r b n hr hstop hn
  obtain ⟨m, s, hs, hsees, hm⟩ := h r b n hr hstop.tighter hn
  obtain ⟨k, rfl⟩ : ∃ k, m = k + 1 := ⟨m - 1, by omega⟩
  refine ⟨s, ?_, hsees⟩
  obtain ⟨next, us, rfl⟩ := hsees.exists_cons
  rw [hs, chain, get_bind_apply, hsees.current.1, hstop.2 tier (Nat.le_refl _)]
  rfl

/-! ## Arguments

Their end is a parenthesis, and the reader decides by it whether there are any. -/

/-- An expression does not start with a closing parenthesis. -/
theorem first_of_expression {tier : Tier} {ts rest : List Token} {t : Node} :
    Expression tier ts t rest → ∃ next us, ts = next :: us ∧ next.kind ≠ .symbol ')'
  | .number => ⟨_, _, rfl, by simp⟩
  | .text => ⟨_, _, rfl, by simp⟩
  | .name => ⟨_, _, rfl, by simp⟩
  | .parentheses _ => ⟨_, _, rfl, by simp⟩
  | .call _ => ⟨_, _, rfl, by simp⟩
  | .power left _ => first_of_expression left
  | .joined _ left _ => first_of_expression left
  | .operand _ inner => first_of_expression inner

/-- Arguments do not begin with what would close them. -/
theorem first_of_someArguments {ts rest : List Token} {arguments : List Node} :
    SomeArguments ts arguments rest → ∃ next us, ts = next :: us ∧ next.kind ≠ .symbol ')'
  | .last h => first_of_expression h
  | .cons first _ => first_of_expression first

theorem readsArguments_none {rest : List Token} : ReadsArguments rest [] rest := by
  intro r b n close us hr hrest hn
  obtain ⟨n, rfl⟩ : ∃ m, n = m + 1 := ⟨n - 1, by omega⟩
  refine ⟨r, ?_, hr⟩
  subst hrest
  rw [callArguments, get_bind_apply, if_pos hr.current.1]
  rfl

/-- One argument or more; that there are some the reader sees at the first token. -/
theorem readsArguments_some {ts rest : List Token} {arguments : List Node}
    (h : SomeArguments ts arguments rest) (inner : ReadsSome ts arguments rest) :
    ReadsArguments ts arguments rest := by
  intro r b n close us hr hrest hn
  obtain ⟨n, rfl⟩ : ∃ m, n = m + 1 := ⟨n - 1, by omega⟩
  obtain ⟨s, hs, hsees⟩ := inner r b n close us hr hrest (by omega)
  refine ⟨s, ?_, hsees⟩
  obtain ⟨next, vs, rfl, hne⟩ := first_of_someArguments h
  have hk : r.kind ≠ .symbol ')' := by
    rw [hr.current.1]
    exact hne
  rw [callArguments, get_bind_apply, if_neg hk, hs]

/-- The last argument, behind which stands no comma. -/
theorem readsSome_last {ts rest : List Token} {t : Node} (inner : Reads .maximum ts t rest) :
    ReadsSome ts [t] rest := by
  intro r b n close us hr hrest hn
  obtain ⟨n, rfl⟩ : ∃ m, n = m + 1 := ⟨n - 1, by omega⟩
  subst hrest
  obtain ⟨s, hs, hsees, -⟩ := inner.run (n := n) hr (Tier.maximum_stopsAt_symbol (by simp))
    (by simp only [Tier.rank]; omega)
  refine ⟨s, ?_, hsees⟩
  have hk : s.kind ≠ .symbol ',' := by
    rw [hsees.current.1]
    simp
  rw [someArguments, bind_of_ok hs, get_bind_apply, if_neg hk]
  rfl

/-- An argument, a comma, and more of them. -/
theorem readsSome_cons {line : Nat} {ts us rest : List Token} {t : Node} {more : List Node}
    (first : Reads .maximum ts t (⟨.symbol ',', line⟩ :: us)) (others : ReadsSome us more rest) :
    ReadsSome ts (t :: more) rest := by
  intro r b n close vs hr hrest hn
  obtain ⟨n, rfl⟩ : ∃ m, n = m + 1 := ⟨n - 1, by omega⟩
  obtain ⟨s, hs, hsees, hleft⟩ := first.run (n := n) hr (Tier.maximum_stopsAt_symbol (by simp))
    (by simp only [Tier.rank]; omega)
  obtain ⟨u, hu, husees, hleft'⟩ := advance_of_sees hsees (by simp)
  obtain ⟨v, hv, hvsees⟩ := others u b n close vs husees hrest (by omega)
  refine ⟨v, ?_, hvsees⟩
  rw [someArguments, bind_of_ok hs, get_bind_apply, if_pos hsees.current.1, bind_of_ok hu,
    bind_of_ok hv]
  rfl

/-! ## Every expression

The recursion over derivations, for the three kinds of them that call each other. -/

/-- A phrase of a tier that groups from the left is an operand of its chain. -/
theorem continues_of_above {tier next : Tier} {ts rest : List Token} {t : Node}
    (h : Above tier next) (htier : tier ≠ .power) (inner : Reads next ts t rest) :
    Continues tier ts t rest := by
  cases h with
  | maximum => exact continues_operand .maximum inner
  | sum => exact continues_operand .add inner
  | product => exact continues_operand .multiply inner
  | power => exact absurd rfl htier

mutual

/-- Every derivation of an expression is read, and if its tier groups from the left, it is read as
an operand of its chain. -/
theorem reads_expression {tier : Tier} {ts rest : List Token} {t : Node} :
    Expression tier ts t rest →
      Reads tier ts t rest ∧ (tier ≠ .power → tier ≠ .atom → Continues tier ts t rest)
  | .number => ⟨reads_number, fun _ h => absurd rfl h⟩
  | .text => ⟨reads_text, fun _ h => absurd rfl h⟩
  | .name => ⟨reads_name, fun _ h => absurd rfl h⟩
  | .parentheses inner =>
    ⟨reads_parentheses (reads_expression inner).1, fun _ h => absurd rfl h⟩
  | .call inner => ⟨reads_call (reads_arguments inner), fun _ h => absurd rfl h⟩
  | .power left right =>
    ⟨reads_power (reads_expression left).1 (reads_expression right).1, fun h _ => absurd rfl h⟩
  | .joined h left right => by
    -- the left operand is in the chain already, and the operator continues it
    have htier : tier ≠ .power ∧ tier ≠ .atom := by cases h <;> decide
    have hcont := continues_joined h ((reads_expression left).2 htier.1 htier.2)
      (reads_expression right).1
    exact ⟨hcont.reads, fun _ _ => hcont⟩
  | .operand h inner => by
    have hinner := (reads_expression inner).1
    by_cases htier : tier = .power
    · subst htier
      cases h with
      | power => exact ⟨reads_base hinner, fun hne _ => absurd rfl hne⟩
    · have hcont := continues_of_above h htier hinner
      exact ⟨hcont.reads, fun _ _ => hcont⟩

/-- What is derived as the arguments of a call is read as such. -/
theorem reads_arguments {ts rest : List Token} {arguments : List Node} :
    Arguments ts arguments rest → ReadsArguments ts arguments rest
  | .none => readsArguments_none
  | .some h => readsArguments_some h (reads_someArguments h)

theorem reads_someArguments {ts rest : List Token} {arguments : List Node} :
    SomeArguments ts arguments rest → ReadsSome ts arguments rest
  | .last h => readsSome_last (reads_expression h).1
  | .cons first others => readsSome_cons (reads_expression first).1 (reads_someArguments others)

end

/-- An expression that nothing continues is read. -/
theorem expression_of_derived {ts rest : List Token} {t : Node}
    (h : Expression .maximum ts t rest) {r : Reader} {b : Bool} {n : Nat} (hr : r.Sees b ts)
    (hstop : Tier.maximum.StopsBefore rest) (hn : 6 * r.left + 5 ≤ n) :
    ∃ s, expression n r = .ok t s ∧ s.Sees b rest ∧ s.left < r.left :=
  (reads_expression h).1.run hr hstop hn

/-! ## Conditions -/

/-- The sign of a comparison ends the expression before it. -/
theorem stopsBefore_of_sign {ts rest : List Token} {op : Comparator} {line : Nat}
    (h : Sign ts op line rest) : Tier.maximum.StopsBefore ts := by
  cases h <;> exact Tier.maximum_stopsAt_symbol (by simp)

/-- A comparison is recognised; the last token of its sign is still to be passed. -/
theorem comparator?_of_sign {ts rest : List Token} {op : Comparator} {line : Nat}
    (h : Sign ts op line rest) {r : Reader} {b : Bool} (hr : r.Sees b ts) :
    r.line = line ∧ ∃ s c last, comparator? r = .ok (some op) s ∧
      s.Sees b (⟨.symbol c, last⟩ :: rest) ∧ s.left ≤ r.left := by
  cases h with
  | greater =>
    refine ⟨hr.current.2, r, _, _, ?_, hr, Nat.le_refl _⟩
    rw [comparator?, get_bind_apply, hr.current.1]
    rfl
  | less =>
    refine ⟨hr.current.2, r, _, _, ?_, hr, Nat.le_refl _⟩
    rw [comparator?, get_bind_apply, hr.current.1]
    rfl
  | equal =>
    refine ⟨hr.current.2, r, _, _, ?_, hr, Nat.le_refl _⟩
    rw [comparator?, get_bind_apply, hr.current.1]
    rfl
  | doubled =>
    -- of the two signs the reader passes the first only
    obtain ⟨s, hs, hsees, hleft⟩ := advance_of_sees hr (by simp)
    refine ⟨hr.current.2, s, _, _, ?_, hsees, Nat.le_of_lt hleft⟩
    rw [comparator?, get_bind_apply, hr.current.1]
    show (advance >>= _) r = _
    rw [bind_of_ok hs, get_bind_apply, if_pos hsees.current.1]
    rfl

/-- A condition is read up to the parenthesis behind it. -/
theorem condition_of_derived {ts rest : List Token} {t : Node} {close : Nat}
    (h : Condition ts t (⟨.symbol ')', close⟩ :: rest)) {r : Reader} {b : Bool} {n : Nat}
    (hr : r.Sees b ts) (hn : 6 * r.left + 5 ≤ n) :
    ∃ s, condition n r = .ok t s ∧ s.Sees b (⟨.symbol ')', close⟩ :: rest) := by
  have hclose : Tier.maximum.StopsBefore (⟨.symbol ')', close⟩ :: rest) :=
    Tier.maximum_stopsAt_symbol (by simp)
  cases h with
  -- an expression alone: what follows is no comparator
  | expression h =>
    obtain ⟨s, hs, hsees, -⟩ := expression_of_derived h hr hclose hn
    refine ⟨s, ?_, hsees⟩
    have hnone : comparator? s = .ok none s := by
      rw [comparator?, get_bind_apply, hsees.current.1]
      rfl
    rw [condition, bind_of_ok hs, get_bind_apply, bind_of_ok hnone]
    rfl
  -- or two of them, where the comparator stops the first and the parenthesis the second
  | comparison left sign right =>
    obtain ⟨s, hs, hsees, hleft⟩ := expression_of_derived left hr (stopsBefore_of_sign sign) hn
    obtain ⟨hline, t, c, last, ht, htsees, hleft'⟩ := comparator?_of_sign sign hsees
    obtain ⟨u, hu, husees, hleft''⟩ := advance_of_sees htsees (by simp)
    obtain ⟨v, hv, hvsees, -⟩ := expression_of_derived right husees hclose (n := n) (by omega)
    refine ⟨v, ?_, hvsees⟩
    rw [condition, bind_of_ok hs, get_bind_apply, bind_of_ok ht]
    show (advance >>= _) t = _
    rw [bind_of_ok hu, bind_of_ok hv, hline]
    rfl

end Reading
end Scriptlet
