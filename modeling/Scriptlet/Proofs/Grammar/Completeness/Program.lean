import Scriptlet.Grammar.Declaration
import Scriptlet.Proofs.Grammar.Completeness.Expression
import Scriptlet.Proofs.Grammar.Soundness

/-!
What is derivable is read: statements, blocks and programs.

A statement ends where the reader would not go on with it: before a token that continues no
expression and is no `else` (`statementStopsBefore`).  Inside a list that is so before a semicolon
and before the closing brace, and also where the flag lets the list go on without a semicolon, since
there either a statement starts or the brace follows (`Statements.stopsBefore`).

`ReadsBlock`, `ReadsList` and `ReadsStatement` say that a reader which sees these tokens, with the
flag as it is before them and with enough fuel, comes to this tree and then sees the rest, with the
flag as it is after them.  There is one lemma for each rule of the grammar that turns readings of its
parts into a reading of the whole, and the recursion over derivations puts them together: it is
mutual, as the derivations are, and needs no fuel, since a derivation is finite.

How much fuel is enough is said in terms of the reader's weight, three units for each unit of it and
one more for each kind of phrase that is called without a token in between.  At each call the weight
has gone down by the tokens taken since, and the arithmetic of it is left to `omega`.

The reverse, that what is read is derivable, is the subject of its own module.  Together they give the
equivalence below; as the reader is a function, no text is derivable as two programs.

Main statement: a source text is read as a program exactly if its tokens are free of lexical errors
and, closed by the end marker, are derivable from the grammar as this program
(`parse_eq_ok_iff_derives`).
-/

namespace Scriptlet

open Grammar

namespace Reading

/-! ## Where a statement ends

The grammar leaves open what stands behind a statement.  The reader looks at it, so it has to be
something that the reader would not go on with. -/

/-- The tokens start with one that does not continue a statement. -/
def statementStopsBefore : List Token → Prop
  | [] => True
  | t :: _ => Tier.maximum.StopsAt t.kind ∧ t.kind ≠ .keyword .elseThen

/-- What ends a statement ends an expression. -/
theorem expression_stops {ts : List Token} (h : statementStopsBefore ts) :
    Tier.maximum.StopsBefore ts := by
  cases ts with
  | nil => trivial
  | cons t ts => exact h.1

theorem stopsBefore_semicolon {line : Nat} {ts : List Token} :
    statementStopsBefore (⟨.symbol ';', line⟩ :: ts) :=
  ⟨Tier.maximum_stopsAt_symbol (by simp), by simp⟩

theorem stopsBefore_brace {line : Nat} {ts : List Token} :
    statementStopsBefore (⟨.symbol '\x7d', line⟩ :: ts) :=
  ⟨Tier.maximum_stopsAt_symbol (by simp), by simp⟩

/-- No statement goes on with what starts one. -/
theorem stopsBefore_of_starts {next : Token} {ts : List Token} (h : StartsStatement next.kind) :
    statementStopsBefore (next :: ts) := by
  obtain ⟨kind, line⟩ := next
  cases h with
  | block => exact ⟨Tier.maximum_stopsAt_symbol (by simp), by simp⟩
  | _ => exact ⟨Tier.maximum_stopsAt_of_not_symbol (by simp), by simp⟩

/-- A statement is empty and changes nothing, or its first token starts one. -/
theorem empty_or_starts {b b' : Bool} {ts rest : List Token} {node : Option Node}
    (h : Statement b ts node b' rest) :
    (b' = b ∧ rest = ts) ∨ ∃ next us, ts = next :: us ∧ StartsStatement next.kind := by
  cases h with
  | empty h => exact Or.inl ⟨rfl, rfl⟩
  | assignment right => exact Or.inr ⟨_, _, rfl, .assignment⟩
  | writing inner => exact Or.inr ⟨_, _, rfl, .writing⟩
  | reading => exact Or.inr ⟨_, _, rfl, .reading⟩
  | returning right => exact Or.inr ⟨_, _, rfl, .returning⟩
  | whileLoop guard inner => exact Or.inr ⟨_, _, rfl, .whileLoop⟩
  | ifThen guard inner => exact Or.inr ⟨_, _, rfl, .ifThen⟩
  | ifThenElse guard inner other => exact Or.inr ⟨_, _, rfl, .ifThen⟩
  | block inner =>
    cases inner with
    | braces inner => exact Or.inr ⟨_, _, rfl, .block⟩

/-- **Going on without a semicolon.**  Where a list goes on with the flag cleared, up to a brace,
the statement before has ended. -/
theorem stopsBefore_of_statements {b' : Bool} {next : Token} {us rest : List Token}
    {nodes : List Node} {close : Nat}
    (h : Statements false (next :: us) nodes b' (⟨.symbol '\x7d', close⟩ :: rest))
    (hnext : next.kind ≠ .symbol ';') : statementStopsBefore (next :: us) := by
  -- what the list looks like, its first statement says
  generalize hts : next :: us = ts at h
  generalize hend : (⟨.symbol '\x7d', close⟩ : Token) :: rest = vs at h
  generalize hb : false = b at h
  cases h with
  | last first hlast =>
    rcases empty_or_starts first with ⟨-, hrest⟩ | ⟨t, us', rfl, hstarts⟩
    · -- nothing before the brace
      rw [← hrest, ← hend]
      exact stopsBefore_brace
    · exact stopsBefore_of_starts hstarts
  | separated first others =>
    rcases empty_or_starts first with ⟨-, hrest⟩ | ⟨t, us', rfl, hstarts⟩
    · -- an empty statement before a semicolon
      rw [← hts, List.cons.injEq] at hrest
      rw [← hrest.1] at hnext
      exact absurd rfl hnext
    · exact stopsBefore_of_starts hstarts
  | resumed first h others =>
    rcases empty_or_starts first with ⟨hflag, -⟩ | ⟨t, us', rfl, hstarts⟩
    · -- an empty statement does not set the flag
      rw [← hb] at hflag
      cases hflag
    · exact stopsBefore_of_starts hstarts

/-! ## The parts of a block

One lemma for each rule of the grammar. -/

/-- The reader takes `ts` for a block. -/
def ReadsBlock (b : Bool) (ts : List Token) (t : Node) (b' : Bool) (rest : List Token) : Prop :=
  ∀ r n, r.Sees b ts → 3 * r.weight + 1 ≤ n → ∃ s, block n r = .ok t s ∧ s.Sees b' rest

/-- The reader takes `ts` for a list of statements, up to the brace. -/
def ReadsList (b : Bool) (ts : List Token) (nodes : List Node) (b' : Bool) (rest : List Token) :
    Prop :=
  ∀ r n close us, r.Sees b ts → rest = ⟨.symbol '\x7d', close⟩ :: us → 3 * r.weight + 3 ≤ n →
    ∃ s, statementList n r = .ok nodes s ∧ s.Sees b' rest

/-- The reader takes `ts` for a statement. -/
def ReadsStatement (b : Bool) (ts : List Token) (node : Option Node) (b' : Bool)
    (rest : List Token) : Prop :=
  ∀ r n, r.Sees b ts → statementStopsBefore rest → 3 * r.weight + 2 ≤ n →
    ∃ s, statement n r = .ok node s ∧ s.Sees b' rest

/-- What `ReadsBlock` says, with the tokens used up. -/
theorem ReadsBlock.run {b b' : Bool} {ts rest : List Token} {t : Node}
    (h : ReadsBlock b ts t b' rest) {r : Reader} {n : Nat} (hr : r.Sees b ts)
    (hn : 3 * r.weight + 1 ≤ n) :
    ∃ s, block n r = .ok t s ∧ s.Sees b' rest ∧ s.left < r.left := by
  obtain ⟨s, hs, hsees⟩ := h r n hr hn
  exact ⟨s, hs, hsees, Ends.of_ok ((ends_of_weight n).1 r hn) hs⟩

/-- What `ReadsStatement` says, with the tokens used up, if there were any. -/
theorem ReadsStatement.run {b b' : Bool} {ts rest : List Token} {node : Option Node}
    (h : ReadsStatement b ts node b' rest) {r : Reader} {n : Nat} (hr : r.Sees b ts)
    (hstop : statementStopsBefore rest) (hn : 3 * r.weight + 2 ≤ n) :
    ∃ s, statement n r = .ok node s ∧ s.Sees b' rest ∧ (node = none ∧ s = r ∨ s.left < r.left) := by
  obtain ⟨s, hs, hsees⟩ := h r n hr hstop hn
  exact ⟨s, hs, hsees, Ends.of_ok ((ends_of_weight n).2.2 r hn) hs⟩

/-- A list in braces.  Its node has the line of the first token behind the brace, and the flag is
set at the end. -/
theorem readsBlock_braces {b b' : Bool} {line close : Nat} {first : Token} {ts rest : List Token}
    {nodes : List Node}
    (inner : ReadsList b (first :: ts) nodes b' (⟨.symbol '\x7d', close⟩ :: rest)) :
    ReadsBlock b (⟨.symbol '\x7b', line⟩ :: first :: ts)
      ⟨.block, [⟨.statements, nodes, first.line⟩], line⟩ true rest := by
  intro r n hr hn
  obtain ⟨n, rfl⟩ : ∃ m, n = m + 1 := ⟨n - 1, by omega⟩
  obtain ⟨s, hs, hsees, hleft⟩ := symbol_of_sees hr
  have hweight := Reader.weight_lt hleft
  obtain ⟨t, ht, htsees⟩ := inner s n close rest hsees rfl (by omega)
  obtain ⟨u, hu, husees, -⟩ := symbol_of_sees htsees
  refine ⟨{ u with resume := true }, ?_, ⟨husees.tokens, husees.ending, rfl⟩⟩
  rw [block, get_bind_apply, bind_of_ok hs, get_bind_apply, bind_of_ok ht, bind_of_ok hu,
    modify_bind_apply, hr.current.2, hsees.current.2]
  rfl

/-! ### Lists

A list is the one phrase whose reading depends on the flag. -/

/-- The last statement of a list, with no semicolon behind it and the flag cleared. -/
theorem readsList_last {b : Bool} {ts rest : List Token} {node : Option Node} {next : Token}
    (first : ReadsStatement b ts node false (next :: rest)) (h : next.kind ≠ .symbol ';') :
    ReadsList b ts node.toList false (next :: rest) := by
  intro r n close us hr hrest hn
  obtain ⟨n, rfl⟩ : ∃ m, n = m + 1 := ⟨n - 1, by omega⟩
  have hstop : statementStopsBefore (next :: rest) := by
    rw [hrest]
    exact stopsBefore_brace
  obtain ⟨s, hs, hsees, -⟩ := first.run (n := n) hr hstop (by omega)
  refine ⟨s, ?_, hsees⟩
  have hk : s.kind ≠ .symbol ';' := by
    rw [hsees.current.1]
    exact h
  rw [statementList, bind_of_ok hs, get_bind_apply, if_neg hk, if_neg (by simp [hsees.resume])]
  rfl

/-- A statement and a semicolon, with the list going on behind it. -/
theorem readsList_separated {b b' b'' : Bool} {line : Nat} {ts us rest : List Token}
    {node : Option Node} {more : List Node}
    (first : ReadsStatement b ts node b' (⟨.symbol ';', line⟩ :: us))
    (others : ReadsList b' us more b'' rest) : ReadsList b ts (node.toList ++ more) b'' rest := by
  intro r n close vs hr hrest hn
  obtain ⟨n, rfl⟩ : ∃ m, n = m + 1 := ⟨n - 1, by omega⟩
  obtain ⟨s, hs, hsees, hleft⟩ := first.run (n := n) hr stopsBefore_semicolon (by omega)
  obtain ⟨t, ht, htsees, hleft'⟩ := advance_of_sees hsees (by simp)
  have hweight : t.weight < r.weight := by
    refine Reader.weight_lt ?_
    rcases hleft with ⟨-, rfl⟩ | hleft
    · exact hleft'
    · omega
  obtain ⟨u, hu, husees⟩ := others t n close vs htsees hrest (by omega)
  refine ⟨u, ?_, husees⟩
  rw [statementList, bind_of_ok hs, get_bind_apply, if_pos hsees.current.1, bind_of_ok ht,
    bind_of_ok hu]
  rfl

/-- A statement that has set the flag, with the list going on behind it all the same. -/
theorem readsList_resumed {b b'' : Bool} {ts us rest : List Token} {node : Option Node}
    {more : List Node} {next : Token} (first : ReadsStatement b ts node true (next :: us))
    (h : next.kind ≠ .symbol ';') (derived : Statements false (next :: us) more b'' rest)
    (others : ReadsList false (next :: us) more b'' rest) :
    ReadsList b ts (node.toList ++ more) b'' rest := by
  intro r n close vs hr hrest hn
  obtain ⟨n, rfl⟩ : ∃ m, n = m + 1 := ⟨n - 1, by omega⟩
  subst hrest
  obtain ⟨s, hs, hsees, hleft⟩ :=
    first.run (n := n) hr (stopsBefore_of_statements derived h) (by omega)
  have hk : s.kind ≠ .symbol ';' := by
    rw [hsees.current.1]
    exact h
  -- the flag weighs something, also where the statement was empty
  have hweight : ({ s with resume := false } : Reader).weight < r.weight := by
    rcases hleft with ⟨-, rfl⟩ | hleft
    · have hres := hsees.resume
      simp only [Reader.weight, Reader.left, hres]
      simp
    · exact Reader.weight_lt hleft
  obtain ⟨t, ht, htsees⟩ := others { s with resume := false } n close vs
    ⟨hsees.tokens, hsees.ending, rfl⟩ rfl (by omega)
  refine ⟨t, ?_, htsees⟩
  rw [statementList, bind_of_ok hs, get_bind_apply, if_neg hk, if_pos hsees.resume,
    modify_bind_apply, bind_of_ok ht]
  rfl

/-! ### Statements -/

/-- Where no other statement starts, nothing is taken. -/
theorem statement_of_not_starts {n : Nat} {r : Reader} (h : ¬ StartsStatement r.kind) :
    statement (n + 1) r = .ok none r := by
  have hpure : ∀ x : Reading (Option Node), x = pure none → x r = .ok none r := by
    rintro x rfl
    rfl
  rw [statement, get_bind_apply]
  refine hpure _ ?_
  split
  · next hk => exact absurd (hk ▸ .assignment) h
  · next hk => exact absurd (hk ▸ .writing) h
  · next hk => exact absurd (hk ▸ .reading) h
  · next hk => exact absurd (hk ▸ .returning) h
  · next hk => exact absurd (hk ▸ .whileLoop) h
  · next hk => exact absurd (hk ▸ .ifThen) h
  · next hk => exact absurd (hk ▸ .block) h
  · rfl

/-- The empty statement is read where no other starts. -/
theorem readsStatement_empty {b : Bool} {next : Token} {rest : List Token}
    (h : ¬ StartsStatement next.kind) : ReadsStatement b (next :: rest) none b (next :: rest) := by
  intro r n hr _ hn
  obtain ⟨n, rfl⟩ : ∃ m, n = m + 1 := ⟨n - 1, by omega⟩
  rw [← hr.current.1] at h
  exact ⟨r, statement_of_not_starts h, hr⟩

/-- An assignment is known by the name it starts with. -/
theorem readsStatement_assignment {b : Bool} {name : String} {line sign : Nat}
    {ts rest : List Token} {value : Node} (right : Expression .maximum ts value rest) :
    ReadsStatement b (⟨.identifier name, line⟩ :: ⟨.symbol '=', sign⟩ :: ts)
      (some (.binary .assign (.leaf (.identifier name) line) value line)) b rest := by
  intro r n hr hstop hn
  obtain ⟨n, rfl⟩ : ∃ m, n = m + 1 := ⟨n - 1, by omega⟩
  -- the fuel is enough, since each part leaves fewer tokens
  have hfuel := r.le_weight
  obtain ⟨s, hs, hsees, hleft⟩ := identifierLeaf_of_sees hr
  obtain ⟨t, ht, htsees, hleft'⟩ := advance_of_sees hsees (by simp)
  obtain ⟨u, hu, husees, -⟩ :=
    expression_of_derived right (n := n) htsees (expression_stops hstop) (by omega)
  have hrun : assignment n r =
      .ok (.binary .assign (.leaf (.identifier name) line) value line) u := by
    rw [assignment, get_bind_apply, bind_of_ok hs, get_bind_apply, if_pos hsees.current.1,
      bind_of_ok ht, bind_of_ok hu, hr.current.2]
    rfl
  refine ⟨u, ?_, husees⟩
  rw [statement, get_bind_apply, hr.current.1]
  show (assignment n >>= _) r = _
  rw [bind_of_ok hrun]
  rfl

theorem readsStatement_writing {b : Bool} {line opening close : Nat} {ts rest : List Token}
    {value : Node} (inner : Expression .maximum ts value (⟨.symbol ')', close⟩ :: rest)) :
    ReadsStatement b (⟨.keyword .writeValue, line⟩ :: ⟨.symbol '(', opening⟩ :: ts)
      (some ⟨.write, [value], line⟩) b rest := by
  intro r n hr _ hn
  obtain ⟨n, rfl⟩ : ∃ m, n = m + 1 := ⟨n - 1, by omega⟩
  have hfuel := r.le_weight
  obtain ⟨s, hs, hsees, hleft⟩ := keyword_of_sees hr
  obtain ⟨t, ht, htsees, hleft'⟩ := symbol_of_sees hsees
  obtain ⟨u, hu, husees, -⟩ := expression_of_derived inner (n := n) htsees
    (Tier.maximum_stopsAt_symbol (by simp)) (by omega)
  obtain ⟨v, hv, hvsees, -⟩ := symbol_of_sees husees
  have hrun : writing n r = .ok ⟨.write, [value], line⟩ v := by
    rw [writing, get_bind_apply, bind_of_ok hs, bind_of_ok ht, bind_of_ok hu, bind_of_ok hv,
      hr.current.2]
    rfl
  refine ⟨v, ?_, hvsees⟩
  rw [statement, get_bind_apply, hr.current.1]
  show (writing n >>= _) r = _
  rw [bind_of_ok hrun]
  rfl

theorem readsStatement_reading {b : Bool} {name : String} {line opening own close : Nat}
    {rest : List Token} :
    ReadsStatement b (⟨.keyword .readValue, line⟩ :: ⟨.symbol '(', opening⟩ ::
        ⟨.identifier name, own⟩ :: ⟨.symbol ')', close⟩ :: rest)
      (some ⟨.read, [.leaf (.identifier name) own], line⟩) b rest := by
  intro r n hr _ hn
  obtain ⟨n, rfl⟩ : ∃ m, n = m + 1 := ⟨n - 1, by omega⟩
  obtain ⟨s, hs, hsees, -⟩ := keyword_of_sees hr
  obtain ⟨t, ht, htsees, -⟩ := symbol_of_sees hsees
  obtain ⟨u, hu, husees, -⟩ := identifierLeaf_of_sees htsees
  obtain ⟨v, hv, hvsees, -⟩ := symbol_of_sees husees
  have hrun : reading r = .ok ⟨.read, [.leaf (.identifier name) own], line⟩ v := by
    rw [reading, get_bind_apply, bind_of_ok hs, bind_of_ok ht, bind_of_ok hu, bind_of_ok hv,
      hr.current.2]
    rfl
  refine ⟨v, ?_, hvsees⟩
  rw [statement, get_bind_apply, hr.current.1]
  show (reading >>= _) r = _
  rw [bind_of_ok hrun]
  rfl

/-- The value of a `return` is read as far as it goes. -/
theorem readsStatement_returning {b : Bool} {line : Nat} {ts rest : List Token} {value : Node}
    (right : Expression .maximum ts value rest) :
    ReadsStatement b (⟨.keyword .returnValue, line⟩ :: ts) (some ⟨.returnValue, [value], line⟩) b
      rest := by
  intro r n hr hstop hn
  obtain ⟨n, rfl⟩ : ∃ m, n = m + 1 := ⟨n - 1, by omega⟩
  have hfuel := r.le_weight
  obtain ⟨s, hs, hsees, hleft⟩ := keyword_of_sees hr
  obtain ⟨t, ht, htsees, -⟩ :=
    expression_of_derived right (n := n) hsees (expression_stops hstop) (by omega)
  have hrun : returning n r = .ok ⟨.returnValue, [value], line⟩ t := by
    rw [returning, get_bind_apply, bind_of_ok hs, bind_of_ok ht, hr.current.2]
    rfl
  refine ⟨t, ?_, htsees⟩
  rw [statement, get_bind_apply, hr.current.1]
  show (returning n >>= _) r = _
  rw [bind_of_ok hrun]
  rfl

/-- A reserved word and its condition. -/
theorem guarded_of_derived {b : Bool} {word : Keyword} {line opening close : Nat}
    {ts us : List Token} {test : Node} (guard : Condition ts test (⟨.symbol ')', close⟩ :: us))
    {r : Reader} {n : Nat} (hr : r.Sees b (⟨.keyword word, line⟩ :: ⟨.symbol '(', opening⟩ :: ts))
    (hn : 6 * r.left ≤ n) :
    ∃ s, guarded word n r = .ok test s ∧ s.Sees b us ∧ s.left < r.left := by
  obtain ⟨s, hs, hsees, hleft⟩ := keyword_of_sees hr
  obtain ⟨t, ht, htsees, hleft'⟩ := symbol_of_sees hsees
  obtain ⟨u, hu, husees⟩ := condition_of_derived guard (n := n) htsees (by omega)
  obtain ⟨v, hv, hvsees, -⟩ := symbol_of_sees husees
  have hrun : guarded word n r = .ok test v := by
    rw [guarded, bind_of_ok hs, bind_of_ok ht, bind_of_ok hu, bind_of_ok hv]
    rfl
  exact ⟨v, hrun, hvsees, Ends.of_ok (Ends.guarded hn) hrun⟩

/-- A loop has the flag of its body. -/
theorem readsStatement_whileLoop {b b' : Bool} {line opening close : Nat} {ts us rest : List Token}
    {test body : Node} (guard : Condition ts test (⟨.symbol ')', close⟩ :: us))
    (inner : ReadsBlock b us body b' rest) :
    ReadsStatement b (⟨.keyword .whileLoop, line⟩ :: ⟨.symbol '(', opening⟩ :: ts)
      (some (.binary .whileLoop test body line)) b' rest := by
  intro r n hr _ hn
  obtain ⟨n, rfl⟩ : ∃ m, n = m + 1 := ⟨n - 1, by omega⟩
  have hfuel := r.le_weight
  obtain ⟨s, hs, hsees, hleft⟩ := guarded_of_derived guard (n := n) hr (by omega)
  have hweight := Reader.weight_lt hleft
  obtain ⟨t, ht, htsees, -⟩ := inner.run (n := n) hsees (by omega)
  refine ⟨t, ?_, htsees⟩
  rw [statement, get_bind_apply, hr.current.1, hr.current.2]
  show (guarded .whileLoop n >>= _) r = _
  rw [bind_of_ok hs, bind_of_ok ht]
  rfl

/-- A choice without an alternative, which ends where no `else` follows. -/
theorem readsStatement_ifThen {b b' : Bool} {line opening close : Nat} {ts us rest : List Token}
    {test consequence : Node} (guard : Condition ts test (⟨.symbol ')', close⟩ :: us))
    (inner : ReadsBlock b us consequence b' rest) :
    ReadsStatement b (⟨.keyword .ifThen, line⟩ :: ⟨.symbol '(', opening⟩ :: ts)
      (some (.binary .ifThen test consequence line)) b' rest := by
  intro r n hr hstop hn
  obtain ⟨n, rfl⟩ : ∃ m, n = m + 1 := ⟨n - 1, by omega⟩
  have hfuel := r.le_weight
  obtain ⟨s, hs, hsees, hleft⟩ := guarded_of_derived guard (n := n) hr (by omega)
  have hweight := Reader.weight_lt hleft
  obtain ⟨t, ht, htsees, -⟩ := inner.run (n := n) hsees (by omega)
  refine ⟨t, ?_, htsees⟩
  -- no `else` follows
  obtain ⟨next, vs, rfl⟩ := htsees.exists_cons
  have hk : t.kind ≠ .keyword .elseThen := by
    rw [htsees.current.1]
    exact hstop.2
  rw [statement, get_bind_apply, hr.current.1, hr.current.2]
  show (guarded .ifThen n >>= _) r = _
  rw [bind_of_ok hs, bind_of_ok ht, get_bind_apply, if_neg hk]
  rfl

/-- A choice with an alternative; the flag goes through both blocks. -/
theorem readsStatement_ifThenElse {b b' b'' : Bool} {line opening close middle : Nat}
    {ts us vs rest : List Token} {test consequence alternative : Node}
    (guard : Condition ts test (⟨.symbol ')', close⟩ :: us))
    (inner : ReadsBlock b us consequence b' (⟨.keyword .elseThen, middle⟩ :: vs))
    (other : ReadsBlock b' vs alternative b'' rest) :
    ReadsStatement b (⟨.keyword .ifThen, line⟩ :: ⟨.symbol '(', opening⟩ :: ts)
      (some ⟨.ifThen, [test, consequence, alternative], line⟩) b'' rest := by
  intro r n hr _ hn
  obtain ⟨n, rfl⟩ : ∃ m, n = m + 1 := ⟨n - 1, by omega⟩
  have hfuel := r.le_weight
  obtain ⟨s, hs, hsees, hleft⟩ := guarded_of_derived guard (n := n) hr (by omega)
  have hweight := Reader.weight_lt hleft
  obtain ⟨t, ht, htsees, hleft'⟩ := inner.run (n := n) hsees (by omega)
  obtain ⟨u, hu, husees, hleft''⟩ := advance_of_sees htsees (by simp)
  have hweight' := Reader.weight_lt (show u.left < r.left by omega)
  obtain ⟨v, hv, hvsees, -⟩ := other.run (n := n) husees (by omega)
  refine ⟨v, ?_, hvsees⟩
  rw [statement, get_bind_apply, hr.current.1, hr.current.2]
  show (guarded .ifThen n >>= _) r = _
  rw [bind_of_ok hs, bind_of_ok ht, get_bind_apply, if_pos htsees.current.1, bind_of_ok hu,
    bind_of_ok hv]
  rfl

theorem readsStatement_block {b b' : Bool} {ts rest : List Token} {t : Node}
    (derived : Block b ts t b' rest) (inner : ReadsBlock b ts t b' rest) :
    ReadsStatement b ts (some t) b' rest := by
  intro r n hr _ hn
  obtain ⟨n, rfl⟩ : ∃ m, n = m + 1 := ⟨n - 1, by omega⟩
  obtain ⟨s, hs, hsees, -⟩ := inner.run (n := n) hr (by omega)
  refine ⟨s, ?_, hsees⟩
  have hk : r.kind = .symbol '\x7b' := by
    cases derived with
    | braces _ => exact hr.current.1
  rw [statement, get_bind_apply, hk]
  show (block n >>= _) r = _
  rw [bind_of_ok hs]
  rfl

/-! ## Every block

The recursion over derivations.  The three theorems call each other on the parts of a derivation. -/

mutual

/-- What is derived as a block is read as one. -/
theorem reads_block {b b' : Bool} {ts rest : List Token} {t : Node} :
    Block b ts t b' rest → ReadsBlock b ts t b' rest
  | .braces inner => readsBlock_braces (reads_statements inner)

/-- What is derived as a list is read as one. -/
theorem reads_statements {b b' : Bool} {ts rest : List Token} {nodes : List Node} :
    Statements b ts nodes b' rest → ReadsList b ts nodes b' rest
  | .last first h => readsList_last (reads_statement first) h
  | .separated first others =>
    readsList_separated (reads_statement first) (reads_statements others)
  | .resumed first h others =>
    readsList_resumed (reads_statement first) h others (reads_statements others)

/-- What is derived as a statement is read as one. -/
theorem reads_statement {b b' : Bool} {ts rest : List Token} {node : Option Node} :
    Statement b ts node b' rest → ReadsStatement b ts node b' rest
  | .empty h => readsStatement_empty h
  | .assignment right => readsStatement_assignment right
  | .writing inner => readsStatement_writing inner
  | .reading => readsStatement_reading
  | .returning right => readsStatement_returning right
  | .whileLoop guard inner => readsStatement_whileLoop guard (reads_block inner)
  | .ifThen guard inner => readsStatement_ifThen guard (reads_block inner)
  | .ifThenElse guard inner other =>
    readsStatement_ifThenElse guard (reads_block inner) (reads_block other)
  | .block inner => readsStatement_block inner (reads_block inner)

end

/-! ## Declarations and programs -/

/-- The parameters are read up to the closing parenthesis. -/
theorem someParameters_of_derived {ts rest : List Token} {names : List Node}
    (h : SomeParameters ts names rest) :
    ∀ {r : Reader} {n : Nat} {b : Bool} {close : Nat} {us : List Token}, r.Sees b ts →
      rest = ⟨.symbol ')', close⟩ :: us → r.left < n →
      ∃ s, someParameters n r = .ok names s ∧ s.Sees b rest ∧ s.left < r.left := by
  induction h with
  | @last name line rest =>
    intro r n b close us hr hrest hn
    obtain ⟨n, rfl⟩ : ∃ m, n = m + 1 := ⟨n - 1, by omega⟩
    obtain ⟨s, hs, hsees, hleft⟩ := identifierLeaf_of_sees hr
    refine ⟨s, ?_, hsees, hleft⟩
    subst hrest
    have hk : s.kind ≠ .symbol ',' := by
      rw [hsees.current.1]
      simp
    -- no comma, so this was the last one
    rw [someParameters, bind_of_ok hs, get_bind_apply, if_neg hk]
    rfl
  | @cons name line comma ts rest more others ih =>
    intro r n b close us hr hrest hn
    obtain ⟨n, rfl⟩ : ∃ m, n = m + 1 := ⟨n - 1, by omega⟩
    obtain ⟨s, hs, hsees, hleft⟩ := identifierLeaf_of_sees hr
    obtain ⟨t, ht, htsees, hleft'⟩ := advance_of_sees hsees (by simp)
    obtain ⟨u, hu, husees, hleft''⟩ := ih (n := n) htsees hrest (by omega)
    refine ⟨u, ?_, husees, by omega⟩
    rw [someParameters, bind_of_ok hs, get_bind_apply, if_pos hsees.current.1, bind_of_ok ht,
      bind_of_ok hu]
    rfl

/-- A list of parameters that is not empty starts with a name. -/
theorem starts_of_someParameters {ts rest : List Token} {names : List Node}
    (h : SomeParameters ts names rest) : ∃ name line us, ts = ⟨.identifier name, line⟩ :: us := by
  cases h with
  | last => exact ⟨_, _, _, rfl⟩
  | cons others => exact ⟨_, _, _, rfl⟩

theorem parameters_of_derived {ts us : List Token} {names : List Node} {close : Nat}
    (h : Parameters ts names (⟨.symbol ')', close⟩ :: us)) {r : Reader} {n : Nat} {b : Bool}
    (hr : r.Sees b ts) (hn : r.left < n) :
    ∃ s, parameters n r = .ok names s ∧ s.Sees b (⟨.symbol ')', close⟩ :: us) ∧
      s.left ≤ r.left := by
  unfold parameters
  rw [get_bind_apply]
  cases h with
  | none =>
    rw [hr.current.1]
    exact ⟨r, rfl, hr, Nat.le_refl _⟩
  | some h =>
    obtain ⟨name, line, vs, rfl⟩ := starts_of_someParameters h
    rw [hr.current.1]
    obtain ⟨s, hs, hsees, hleft⟩ := someParameters_of_derived h (n := n) hr rfl hn
    exact ⟨s, hs, hsees, Nat.le_of_lt hleft⟩

/-- A declaration, with the flag as its body leaves it. -/
theorem declaration_of_derived {b b' : Bool} {ts rest : List Token} {first : String × Node}
    (h : Declaration b ts first b' rest) {r : Reader} {n : Nat} (hr : r.Sees b ts)
    (hn : 6 * r.left ≤ n) :
    ∃ s, declaration n r = .ok first s ∧ s.Sees b' rest ∧ s.left < r.left := by
  cases h with
  | @function _ name line own opening close list brace ts us rest names nodes next parameters
      body =>
    obtain ⟨s, hs, hsees, hleft⟩ := keyword_of_sees hr
    obtain ⟨t, ht, htsees, hleft'⟩ := identifier_of_sees hsees
    obtain ⟨u, hu, husees, hleft''⟩ := symbol_of_sees htsees
    obtain ⟨v, hv, hvsees, hleft₃⟩ := parameters_of_derived parameters (n := n) husees (by omega)
    obtain ⟨w, hw, hwsees, hleft₄⟩ := symbol_of_sees hvsees
    -- four tokens have been taken, which leaves enough fuel for the body with any flag
    have hweight := w.weight_le
    obtain ⟨x, hx, hxsees, -⟩ := (reads_block body).run (n := n) hwsees (by omega)
    have hrun : declaration n r =
        .ok (name, ⟨.function name,
            names ++ [⟨.block, [⟨.statements, nodes ++ [implicitReturn next.line], list⟩], brace⟩],
            line⟩)
          { x with log := x.log.add (.declared name names.length) } := by
      rw [declaration, get_bind_apply, bind_of_ok hs, bind_of_ok ht, bind_of_ok hu, bind_of_ok hv,
        bind_of_ok hw, bind_of_ok hx, get_bind_apply, modify_bind_apply, hr.current.2,
        hxsees.current.2]
      rfl
    exact ⟨_, hrun, ⟨hxsees.tokens, hxsees.ending, hxsees.resume⟩,
      Ends.of_ok (Ends.declaration hn) hrun⟩

/-- The declarations are read up to the end marker. -/
theorem declarations_of_derived {b b' : Bool} {ts rest : List Token}
    {functions : List (String × Node)} (h : Declarations b ts functions b' rest) :
    ∀ {r : Reader} {n : Nat} {last : Token}, r.Sees b ts → rest = [last] → last.kind = .finish →
      6 * r.left < n → ∃ s, declarations n r = .ok functions s ∧ s.Sees b' rest := by
  induction h with
  | none =>
    intro r n last hr hrest hlast hn
    obtain ⟨n, rfl⟩ : ∃ m, n = m + 1 := ⟨n - 1, by omega⟩
    refine ⟨r, ?_, hr⟩
    subst hrest
    -- the end marker starts no declaration
    have hk : r.kind ≠ .keyword .function := by
      rw [hr.current.1, hlast]
      simp
    rw [declarations, get_bind_apply, if_neg hk]
    rfl
  | cons head tail ih =>
    intro r n last hr hrest hlast hn
    obtain ⟨n, rfl⟩ : ∃ m, n = m + 1 := ⟨n - 1, by omega⟩
    obtain ⟨s, hs, hsees, hleft⟩ := declaration_of_derived head (n := n) hr (by omega)
    obtain ⟨t, ht, htsees⟩ := ih (n := n) hsees hrest hlast (by omega)
    refine ⟨t, ?_, htsees⟩
    have hk : r.kind = .keyword .function := by
      cases head
      exact hr.current.1
    rw [declarations, get_bind_apply, if_pos hk, bind_of_ok hs, bind_of_ok ht]
    rfl

/-- **Completeness.**  A program that the tokens before the reader spell is read. -/
theorem program_of_derives {ts : List Token} {p : Program} (h : Derives ts p) {r : Reader}
    (hr : r.Sees false ts) : ∃ s, program r = .ok p s := by
  cases h with
  | program h hlast =>
    obtain ⟨s, hs, hsees⟩ := declarations_of_derived h hr rfl hlast (Nat.lt_succ_self _)
    refine ⟨s, ?_⟩
    have hk : s.kind = .finish := by
      rw [hsees.current.1, hlast]
    rw [program, get_bind_apply, bind_of_ok hs, get_bind_apply, if_pos hk, hr.current.2]
    rfl

end Reading

/-! ## Source texts

From readers to texts: the reader starts with the first token of the text and the flag cleared. -/

namespace Program

/-- Where reading a source text starts: on its first token, with the flag cleared. -/
def startReader (c : Cursor) : Reader := ⟨c, false, Log.empty.add (.token c.current)⟩

/-- The report of a reading that finds a program. -/
theorem readSource_of_ok {source : String} {c : Cursor} {p : Program} {r : Reader}
    (hc : Cursor.start source = .ok c) (hr : Reading.program (startReader c) = .ok p r) :
    readSource source = (.ok p, r.log.toList) := by
  unfold readSource
  rw [hc]
  dsimp only
  unfold startReader at hr
  split
  · next q s hs =>
    rw [hr] at hs
    cases hs
    rfl
  · next e s hs =>
    rw [hr] at hs
    cases hs
  · next s hs => exact absurd hs Reading.program_ne_outOfFuel

/-- The report of a reading that stops at an error. -/
theorem readSource_of_failed {source : String} {c : Cursor} {e : Error} {r : Reader}
    (hc : Cursor.start source = .ok c)
    (hr : Reading.program (startReader c) = .error (.failed e) r) :
    readSource source = (.error e, r.log.toList) := by
  unfold readSource
  rw [hc]
  dsimp only
  unfold startReader at hr
  split
  · next q s hs =>
    rw [hr] at hs
    cases hs
  · next e s hs =>
    rw [hr] at hs
    cases hs
    rfl
  · next s hs => exact absurd hs Reading.program_ne_outOfFuel

/-- A text is read as what its reader comes to. -/
theorem parse_of_start {source : String} {c : Cursor} {p : Program} {r : Reader}
    (hc : Cursor.start source = .ok c) (hr : Reading.program (startReader c) = .ok p r) :
    parse source = .ok p := congrArg Prod.fst (readSource_of_ok hc hr)

/-- And every program that is read has come from such a reader. -/
theorem exists_start_of_parse {source : String} {p : Program} (h : parse source = .ok p) :
    ∃ c r, Cursor.start source = .ok c ∧ Reading.program (startReader c) = .ok p r := by
  unfold parse readSource at h
  split at h
  · cases h
  · next c hc =>
    split at h
    · next q r hr =>
      cases h
      exact ⟨c, r, hc, hr⟩
    · cases h
    · next s hs => exact absurd hs Reading.program_ne_outOfFuel

/-- What is read of a source text is derivable from its tokens. -/
theorem derives_of_parse {source : String} {p : Program} (h : parse source = .ok p) :
    ∃ ts, tokens source = .ok ts ∧ Derives (ts ++ [endMarker source]) p := by
  obtain ⟨c, r, hc, hr⟩ := exists_start_of_parse h
  obtain ⟨hderives, t, ht⟩ := Reading.Yields.program rfl p r hr
  have hstream : c.stream = TokenStream.ofSource source := Cursor.stream_of_start hc
  have hof : TokenStream.ofSource source = ⟨c.stream.tokens, .ok t⟩ := by
    rw [← hstream]
    exact congrArg (TokenStream.mk c.stream.tokens) ht
  have hend : t = endMarker source := TokenStream.eq_endMarker (congrArg TokenStream.ending hof)
  have htokens : (startReader c).tokens = c.stream.tokens ++ [endMarker source] := by
    show c.stream.delivered = _
    rw [hstream, hof, hend]
    rfl
  rw [hend] at hof
  rw [htokens] at hderives
  exact ⟨c.stream.tokens, tokens_eq_ok_iff.2 hof, hderives⟩

/-- Where a source text has no lexical error, its tokens and the end marker are seen from the start.
-/
theorem exists_start_sees {source : String} {ts : List Token} (ht : tokens source = .ok ts) :
    ∃ c, Cursor.start source = .ok c ∧ (startReader c).Sees false (ts ++ [endMarker source]) := by
  rw [tokens_eq_ok_iff] at ht
  obtain ⟨c, hc⟩ := Cursor.exists_start (congrArg TokenStream.ending ht)
  have hstream : c.stream = ⟨ts, .ok (endMarker source)⟩ := (Cursor.stream_of_start hc).trans ht
  refine ⟨c, hc, ?_, ⟨endMarker source, ?_⟩, rfl⟩
  · show c.stream.delivered = _
    rw [hstream]
    rfl
  · show c.stream.ending = _
    rw [hstream]

/-- What is derivable from the tokens of a source text is read. -/
theorem parse_of_derives {source : String} {ts : List Token} {p : Program}
    (ht : tokens source = .ok ts) (h : Derives (ts ++ [endMarker source]) p) :
    parse source = .ok p := by
  obtain ⟨c, hc, hsees⟩ := exists_start_sees ht
  obtain ⟨r, hr⟩ := Reading.program_of_derives h hsees
  exact parse_of_start hc hr

/-- **Acceptance is derivability.**  A source text is read as the program `p` exactly if it has no
lexical error and its tokens, closed by the end marker, spell `p`. -/
theorem parse_eq_ok_iff_derives {source : String} {p : Program} :
    parse source = .ok p ↔
      ∃ ts, tokens source = .ok ts ∧ Derives (ts ++ [endMarker source]) p := by
  constructor
  · exact derives_of_parse
  · rintro ⟨ts, ht, h⟩
    exact parse_of_derives ht h

end Program
end Scriptlet
