import Scriptlet.Proofs.Grammar.Completeness.Program
import Scriptlet.Proofs.Syntax.Printing

/-!
What is printed is read back.

The tokens that a program is printed with are derivable in the grammar, and the tree of the derivation
is the program's, up to lines.  The proof goes phrase by phrase: `PrintsExpression`, `PrintsStatement`
and so on say that tokens of these kinds, on whatever lines and whatever follows them, are a phrase
with a given tree; there is one lemma for each way to build a phrase, and the inductions over the
abstract syntax only put them together.

The statements about phrases have two things in common.  They are about the kinds of the tokens, since
printing knows of no lines, and so the tree is given with its lines put to `0`.  And they speak of
what follows the phrase: a derivation in the grammar is of a phrase in front of a rest, and only with
the rest left open can one phrase be put in front of another.  For a list of statements and for a
declaration the flag of the reader comes in as well, before and after the phrase.

Two things could go wrong and do not.

* Parentheses are left out where the tiers allow it.  An expression of a tight tier is one of every
  looser tier (`loosen`), and each operator finds its operands in the tiers they were printed for.
* The flag that lets a list of statements go on without a semicolon may be set at the end of a list.
  The list then goes on all the same, with the empty statement, which leaves no node
  (`statements_of_last`).

From the derivation one gets to the reader by the completeness of reading: what is derivable is what
is read.  The grammar being unambiguous is not needed for that.

Main statement: `parse_of_renders`.
-/

namespace Scriptlet.Syntax

open Grammar (Above Joins)

/-! ## Tokens of given kinds

Tokens are known by their kinds only, so a list of them is taken apart by the list of the kinds. -/

/-- Of tokens whose kinds begin with one, the first is of that kind. -/
theorem exists_token {ts : List Token} {kind : Token.Kind} {kinds : List Token.Kind}
    (h : ts.map Token.kind = kind :: kinds) :
    ∃ line us, ts = ⟨kind, line⟩ :: us ∧ us.map Token.kind = kinds := by
  obtain ⟨t, us, rfl, rfl, hus⟩ := List.map_eq_cons_iff.1 h
  exact ⟨t.line, us, rfl, hus⟩

/-- Tokens whose kinds are two lists in sequence are so themselves. -/
theorem exists_append {ts : List Token} {kinds more : List Token.Kind}
    (h : ts.map Token.kind = kinds ++ more) :
    ∃ us vs, ts = us ++ vs ∧ us.map Token.kind = kinds ∧ vs.map Token.kind = more :=
  List.map_eq_append_iff.1 h

/-- Where one more token follows, there is a first one. -/
theorem exists_first (ts : List Token) (t : Token) (rest : List Token) :
    ∃ first us, ts ++ t :: rest = first :: us := by
  cases ts with
  | nil => exact ⟨t, rest, rfl⟩
  | cons first ts => exact ⟨first, ts ++ t :: rest, rfl⟩

/-- Tokens between two marks. -/
theorem exists_enclosed {ts : List Token} {opening closing : Char} {kinds : List Token.Kind}
    (h : ts.map Token.kind = enclosed opening closing kinds) :
    ∃ line close us, ts = ⟨.symbol opening, line⟩ :: (us ++ [⟨.symbol closing, close⟩]) ∧
      us.map Token.kind = kinds := by
  obtain ⟨line, us, rfl, hus⟩ := exists_token h
  obtain ⟨vs, ws, rfl, hvs, hws⟩ := exists_append hus
  obtain ⟨close, xs, rfl, hxs⟩ := exists_token hws
  rw [List.map_eq_nil_iff] at hxs
  subst hxs
  exact ⟨line, close, vs, rfl, hvs⟩

/-! ## Expressions -/

/-- A looser tier is reached one tier at a time. -/
theorem exists_above {own tier : Tier} (h : own.rank ≤ tier.rank) :
    own = tier ∨ ∃ next, Above tier next ∧ own.rank ≤ next.rank ∧ next.rank < tier.rank := by
  cases tier with
  | atom =>
    left
    cases own <;> first | rfl | exact absurd h (by decide)
  | power =>
    cases own <;> first
      | exact Or.inl rfl
      | exact Or.inr ⟨_, .power, by decide, by decide⟩
      | exact absurd h (by decide)
  | product =>
    cases own <;> first
      | exact Or.inl rfl
      | exact Or.inr ⟨_, .product, by decide, by decide⟩
      | exact absurd h (by decide)
  | sum =>
    cases own <;> first
      | exact Or.inl rfl
      | exact Or.inr ⟨_, .sum, by decide, by decide⟩
      | exact absurd h (by decide)
  | maximum =>
    cases own <;> first
      | exact Or.inl rfl
      | exact Or.inr ⟨_, .maximum, by decide, by decide⟩

/-- An expression of a tight tier is one of every looser tier. -/
theorem loosen {own tier : Tier} {ts rest : List Token} {t : Node}
    (e : Grammar.Expression own ts t rest) (h : own.rank ≤ tier.rank) :
    Grammar.Expression tier ts t rest := by
  induction hn : tier.rank using Nat.strongRecOn generalizing tier with
  | ind n ih =>
    rcases exists_above h with rfl | ⟨next, habove, hle, hlt⟩
    · exact e
    · exact .operand habove (ih next.rank (hn ▸ hlt) hle rfl)

/-- Tokens of these kinds are an expression of the tier with this tree. -/
def PrintsExpression (tier : Tier) (kinds : List Token.Kind) (tree : Node) : Prop :=
  ∀ ts rest, ts.map Token.kind = kinds →
    ∃ t, Grammar.Expression tier (ts ++ rest) t rest ∧ t.eraseLines = tree

/-- Tokens of these kinds are one argument or more. -/
def PrintsArguments (kinds : List Token.Kind) (trees : List Node) : Prop :=
  ∀ ts rest, ts.map Token.kind = kinds →
    ∃ nodes, Grammar.SomeArguments (ts ++ rest) nodes rest ∧ Node.eraseLinesOfAll nodes = trees

/-- What prints for a tight tier does so for a looser one. -/
theorem PrintsExpression.loosen {own tier : Tier} {kinds : List Token.Kind} {tree : Node}
    (h : PrintsExpression own kinds tree) (hle : own.rank ≤ tier.rank) :
    PrintsExpression tier kinds tree := by
  intro ts rest hts
  obtain ⟨t, ht, htree⟩ := h ts rest hts
  exact ⟨t, Syntax.loosen ht hle, htree⟩

/-- One token that is an atom. -/
theorem printsExpression_leaf {tier : Tier} {kind : Token.Kind} {label : Label}
    (h : ∀ line rest, Grammar.Expression .atom (⟨kind, line⟩ :: rest) (.leaf label line) rest) :
    PrintsExpression tier [kind] (.leaf label 0) := by
  intro ts rest hts
  obtain ⟨line, us, rfl, hus⟩ := exists_token hts
  rw [List.map_eq_nil_iff] at hus
  subst hus
  refine ⟨.leaf label line, Syntax.loosen (h line rest) ?_, rfl⟩
  cases tier <;> decide

theorem printsExpression_parentheses {kinds : List Token.Kind} {tree : Node}
    (h : PrintsExpression .maximum kinds tree) :
    PrintsExpression .atom (enclosed '(' ')' kinds) tree := by
  intro ts rest hts
  obtain ⟨line, close, us, rfl, hus⟩ := exists_enclosed hts
  obtain ⟨t, ht, htree⟩ := h us (⟨.symbol ')', close⟩ :: rest) hus
  rw [List.cons_append, List.append_assoc]
  exact ⟨t, .parentheses ht, htree⟩

/-- **Precedence.**  Operands that were printed for their tiers are found there. -/
theorem printsExpression_operation {op : Operator} {kinds more : List Token.Kind}
    {left right : Node} (hleft : PrintsExpression op.leftTier kinds left)
    (hright : PrintsExpression op.rightTier more right) :
    PrintsExpression op.tier (kinds ++ .symbol op.symbol :: more)
      (.binary (.operator op) left right 0) := by
  intro ts rest hts
  obtain ⟨us, vs, rfl, hus, hvs⟩ := exists_append hts
  obtain ⟨line, ws, rfl, hws⟩ := exists_token hvs
  obtain ⟨r, hr, rfl⟩ := hright ws rest hws
  obtain ⟨l, hl, rfl⟩ := hleft us (⟨.symbol op.symbol, line⟩ :: (ws ++ rest)) hus
  rw [List.append_assoc]
  refine ⟨.binary (.operator op) l r line, ?_, rfl⟩
  -- the tiers of the operands are those of the rule, operator by operator
  cases op with
  | add => exact .joined .add hl hr
  | subtract => exact .joined .subtract hl hr
  | multiply => exact .joined .multiply hl hr
  | divide => exact .joined .divide hl hr
  | remainder => exact .joined .remainder hl hr
  | maximum => exact .joined .maximum hl hr
  | power => exact .power hl hr

/-- Parentheses are only put where the operator is too loose, and change nothing. -/
theorem printsExpression_grouped {tier : Tier} {op : Operator} {kinds : List Token.Kind}
    {tree : Node} (h : PrintsExpression op.tier kinds tree) :
    PrintsExpression tier (grouped tier op kinds) tree := by
  unfold grouped
  split
  · next hle => exact h.loosen hle
  · have hatom := printsExpression_parentheses (h.loosen op.tier.rank_le)
    apply hatom.loosen
    cases tier <;> decide

theorem printsArguments_last {kinds : List Token.Kind} {tree : Node}
    (h : PrintsExpression .maximum kinds tree) : PrintsArguments kinds [tree] := by
  intro ts rest hts
  obtain ⟨t, ht, rfl⟩ := h ts rest hts
  exact ⟨[t], .last ht, rfl⟩

/-- An argument, a comma and more of them. -/
theorem printsArguments_cons {kinds more : List Token.Kind} {tree : Node} {trees : List Node}
    (h : PrintsExpression .maximum kinds tree) (hmore : PrintsArguments more trees) :
    PrintsArguments (kinds ++ .symbol ',' :: more) (tree :: trees) := by
  intro ts rest hts
  obtain ⟨us, vs, rfl, hus, hvs⟩ := exists_append hts
  obtain ⟨line, ws, rfl, hws⟩ := exists_token hvs
  obtain ⟨t, ht, rfl⟩ := h us (⟨.symbol ',', line⟩ :: (ws ++ rest)) hus
  obtain ⟨nodes, hnodes, rfl⟩ := hmore ws rest hws
  rw [List.append_assoc]
  exact ⟨t :: nodes, .cons ht hnodes, rfl⟩

/-- The arguments of a call, if each of them is printed as it should. -/
theorem printsArguments_separated {e : Expression} {es : List Expression}
    (h : ∀ a ∈ e :: es, PrintsExpression .maximum (a.kinds .maximum) a.tree) :
    PrintsArguments (separated ',' (Expression.kindsOfAll (e :: es)))
      (Expression.trees (e :: es)) := by
  induction es generalizing e with
  | nil => exact printsArguments_last (h e List.mem_cons_self)
  | cons e' es ih =>
    obtain ⟨hfirst, hothers⟩ := List.forall_mem_cons.1 h
    exact printsArguments_cons hfirst (ih hothers)

/-- The arguments of a call as they are printed, none of them included. -/
theorem exists_arguments {es : List Expression}
    (h : ∀ a ∈ es, PrintsExpression .maximum (a.kinds .maximum) a.tree) {ts : List Token}
    (hts : ts.map Token.kind = separated ',' (Expression.kindsOfAll es)) (rest : List Token) :
    ∃ nodes, Grammar.Arguments (ts ++ rest) nodes rest ∧
      Node.eraseLinesOfAll nodes = Expression.trees es := by
  cases es with
  | nil =>
    rw [show ts = [] from List.map_eq_nil_iff.1 hts]
    exact ⟨[], .none, rfl⟩
  | cons e es =>
    obtain ⟨nodes, hnodes, htrees⟩ := printsArguments_separated h ts rest hts
    exact ⟨nodes, .some hnodes, htrees⟩

/-- A call is an atom, and so of every tier. -/
theorem printsExpression_call {tier : Tier} {function : Name} {arguments : List Expression}
    (h : ∀ a ∈ arguments, PrintsExpression .maximum (a.kinds .maximum) a.tree) :
    PrintsExpression tier ((Expression.call function arguments).kinds tier)
      (Expression.call function arguments).tree := by
  intro ts rest hts
  obtain ⟨line, us, rfl, hus⟩ := exists_token hts
  obtain ⟨opening, close, vs, rfl, hvs⟩ := exists_enclosed hus
  obtain ⟨nodes, hnodes, htrees⟩ := exists_arguments h hvs (⟨.symbol ')', close⟩ :: rest)
  have hcall : Grammar.Expression .atom
      (⟨.identifier function.spelling, line⟩ :: ⟨.symbol '(', opening⟩ ::
        (vs ++ ⟨.symbol ')', close⟩ :: rest))
      ⟨.call function.spelling, nodes, line⟩ rest := .call hnodes
  rw [List.cons_append, List.cons_append, List.append_assoc]
  refine ⟨_, Syntax.loosen hcall ?_, ?_⟩
  · cases tier <;> decide
  · rw [Node.eraseLines, htrees]
    rfl

mutual

/-- **Expressions.**  An expression that is printed for a tier is one of this tier. -/
theorem Expression.prints (tier : Tier) :
    (e : Expression) → PrintsExpression tier (e.kinds tier) e.tree
  | .number x => printsExpression_leaf fun _ _ => .number
  | .text s => printsExpression_leaf fun _ _ => .text
  | .name x => printsExpression_leaf fun _ _ => .name
  | .operation op left right => by
    have hleft := left.prints op.leftTier
    have hright := right.prints op.rightTier
    exact printsExpression_grouped (printsExpression_operation hleft hright)
  | .call function arguments => printsExpression_call (Expression.prints_of_mem arguments)

/-- All expressions of a list, by recursion on it, mutually with the recursion on expressions. -/
theorem Expression.prints_of_mem :
    (es : List Expression) → ∀ e ∈ es, PrintsExpression .maximum (e.kinds .maximum) e.tree
  | [] => by
    intro e h
    cases h
  | e :: es => List.forall_mem_cons.2 ⟨e.prints .maximum, Expression.prints_of_mem es⟩

end

/-! ## Conditions -/

/-- A comparison of one character or of two. -/
theorem exists_sign {op : Comparator} {ts : List Token} (h : ts.map Token.kind = signKinds op)
    (rest : List Token) : ∃ line, Grammar.Sign (ts ++ rest) op line rest := by
  cases op with
  | greater =>
    obtain ⟨line, us, rfl, hus⟩ := exists_token h
    rw [show us = [] from List.map_eq_nil_iff.1 hus]
    exact ⟨line, .greater⟩
  | less =>
    obtain ⟨line, us, rfl, hus⟩ := exists_token h
    rw [show us = [] from List.map_eq_nil_iff.1 hus]
    exact ⟨line, .less⟩
  | equal =>
    obtain ⟨line, us, rfl, hus⟩ := exists_token h
    obtain ⟨second, vs, rfl, hvs⟩ := exists_token hus
    rw [show vs = [] from List.map_eq_nil_iff.1 hvs]
    exact ⟨line, .doubled⟩

/-- A condition is two expressions around the sign of the comparison, or the expression it consists
of. -/
theorem Condition.prints (test : Condition) {ts : List Token}
    (hts : ts.map Token.kind = test.kinds) (rest : List Token) :
    ∃ t, Grammar.Condition (ts ++ rest) t rest ∧ t.eraseLines = test.tree := by
  cases test with
  | expression e =>
    obtain ⟨t, ht, htree⟩ := e.prints .maximum ts rest hts
    exact ⟨t, .expression ht, htree⟩
  | comparison op left right =>
    -- the tokens are those of the left side, the sign and the right side
    obtain ⟨us, vs, rfl, hus, hvs⟩ := exists_append hts
    obtain ⟨sign, ws, rfl, hsign, hws⟩ := exists_append hvs
    obtain ⟨r, hr, hright⟩ := right.prints .maximum ws rest hws
    obtain ⟨line, hline⟩ := exists_sign hsign (ws ++ rest)
    obtain ⟨l, hl, hleft⟩ := left.prints .maximum us (sign ++ (ws ++ rest)) hus
    rw [List.append_assoc, List.append_assoc]
    refine ⟨.binary (.comparison op) l r line, .comparison hl hline hr, ?_⟩
    show Node.binary (.comparison op) l.eraseLines r.eraseLines 0 = _
    rw [hleft, hright]
    rfl

/-! ## Statements

The flag is whatever it was before, and may be set or cleared behind. -/

/-- Tokens of these kinds are a statement, whatever the flag. -/
def PrintsStatement (kinds : List Token.Kind) (tree : Node) : Prop :=
  ∀ b ts rest, ts.map Token.kind = kinds →
    ∃ t b', Grammar.Statement b (ts ++ rest) (some t) b' rest ∧ t.eraseLines = tree

/-- Tokens of these kinds are a list of statements, if a brace follows. -/
def PrintsStatements (kinds : List Token.Kind) (trees : List Node) : Prop :=
  ∀ b ts close rest, ts.map Token.kind = kinds →
    ∃ nodes, Grammar.Statements b (ts ++ ⟨.symbol '\x7d', close⟩ :: rest) nodes false
      (⟨.symbol '\x7d', close⟩ :: rest) ∧ Node.eraseLinesOfAll nodes = trees

/-- Tokens of these kinds are a block with these statements. -/
def PrintsBlock (kinds : List Token.Kind) (trees : List Node) : Prop :=
  ∀ b ts rest, ts.map Token.kind = kinds →
    ∃ nodes list line, Grammar.Block b (ts ++ rest) ⟨.block, [⟨.statements, nodes, list⟩], line⟩
      true rest ∧ Node.eraseLinesOfAll nodes = trees

/-- No statement starts with a closing brace, so the empty one stands before it. -/
theorem statement_before_brace (b : Bool) (close : Nat) (rest : List Token) :
    Grammar.Statement b (⟨.symbol '\x7d', close⟩ :: rest) none b
      (⟨.symbol '\x7d', close⟩ :: rest) := by
  apply Grammar.Statement.empty
  intro hstarts
  cases hstarts

/-- **The end of a list.**  A statement before the closing brace is the last one of its list.  If the
flag is set, the list goes on once more, and finds nothing. -/
theorem statements_of_last {b b' : Bool} {ts rest : List Token} {node : Option Node} {close : Nat}
    (h : Grammar.Statement b ts node b' (⟨.symbol '\x7d', close⟩ :: rest)) :
    Grammar.Statements b ts node.toList false (⟨.symbol '\x7d', close⟩ :: rest) := by
  have hbrace : Token.Kind.symbol '\x7d' ≠ .symbol ';' := by decide
  cases b' with
  | false => exact .last h hbrace
  | true =>
    have hempty := statement_before_brace false close rest
    have hresumed := Grammar.Statements.resumed h hbrace (.last hempty hbrace)
    rwa [Option.toList_none, List.append_nil] at hresumed

theorem printsStatements_nil : PrintsStatements [] [] := by
  intro b ts close rest hts
  rw [show ts = [] from List.map_eq_nil_iff.1 hts]
  exact ⟨[], statements_of_last (statement_before_brace b close rest), rfl⟩

/-- A statement by itself, with nothing behind it but the end of its list. -/
theorem printsStatements_last {kinds : List Token.Kind} {tree : Node}
    (h : PrintsStatement kinds tree) : PrintsStatements kinds [tree] := by
  intro b ts close rest hts
  obtain ⟨t, b', ht, rfl⟩ := h b ts (⟨.symbol '\x7d', close⟩ :: rest) hts
  exact ⟨[t], statements_of_last ht, rfl⟩

/-- A statement, a semicolon and more of them. -/
theorem printsStatements_cons {kinds more : List Token.Kind} {tree : Node} {trees : List Node}
    (h : PrintsStatement kinds tree) (hmore : PrintsStatements more trees) :
    PrintsStatements (kinds ++ .symbol ';' :: more) (tree :: trees) := by
  intro b ts close rest hts
  obtain ⟨us, vs, rfl, hus, hvs⟩ := exists_append hts
  obtain ⟨line, ws, rfl, hws⟩ := exists_token hvs
  obtain ⟨t, b', ht, rfl⟩ :=
    h b us (⟨.symbol ';', line⟩ :: (ws ++ ⟨.symbol '\x7d', close⟩ :: rest)) hus
  obtain ⟨nodes, hnodes, rfl⟩ := hmore b' ws close rest hws
  rw [List.append_assoc]
  exact ⟨t :: nodes, .separated ht hnodes, rfl⟩

/-- A block, if each of its statements is printed as it should. -/
theorem printsBlock {ss : List Statement} (h : ∀ s ∈ ss, PrintsStatement s.kinds s.tree) :
    PrintsBlock (braced (Statement.kindsOfAll ss)) (Statement.trees ss) := by
  have hlist : PrintsStatements (separated ';' (Statement.kindsOfAll ss)) (Statement.trees ss) := by
    induction ss with
    | nil => exact printsStatements_nil
    | cons s ss ih =>
      obtain ⟨hfirst, hothers⟩ := List.forall_mem_cons.1 h
      cases ss with
      | nil => exact printsStatements_last hfirst
      | cons s' ss => exact printsStatements_cons hfirst (ih hothers)
  intro b ts rest hts
  obtain ⟨line, close, us, rfl, hus⟩ := exists_enclosed hts
  obtain ⟨nodes, hnodes, htrees⟩ := hlist b us close rest hus
  -- the list has the line of its first token, which is the brace if there is no statement
  obtain ⟨first, vs, hvs⟩ := exists_first us ⟨.symbol '\x7d', close⟩ rest
  rw [hvs] at hnodes
  rw [List.cons_append, List.append_assoc, List.singleton_append, hvs]
  exact ⟨nodes, first.line, line, .braces hnodes, htrees⟩

/-- The block itself, given the lists of statements in it. -/
theorem PrintsBlock.exists_tree {kinds : List Token.Kind} {trees : List Node}
    (h : PrintsBlock kinds trees) (b : Bool) {ts : List Token} (rest : List Token)
    (hts : ts.map Token.kind = kinds) :
    ∃ t, Grammar.Block b (ts ++ rest) t true rest ∧ t.eraseLines = blockTree trees := by
  obtain ⟨nodes, list, line, hblock, rfl⟩ := h b ts rest hts
  exact ⟨_, hblock, rfl⟩

/-- A keyword with something in parentheses, and more behind it. -/
theorem exists_headed {ts : List Token} {k : Keyword} {kinds more : List Token.Kind}
    (h : ts.map Token.kind = .keyword k :: (enclosed '(' ')' kinds ++ more)) :
    ∃ line opening close us vs,
      ts = ⟨.keyword k, line⟩ :: ⟨.symbol '(', opening⟩ :: (us ++ ⟨.symbol ')', close⟩ :: vs) ∧
        us.map Token.kind = kinds ∧ vs.map Token.kind = more := by
  obtain ⟨line, us, rfl, hus⟩ := exists_token h
  obtain ⟨vs, ws, rfl, hvs, hws⟩ := exists_append hus
  obtain ⟨opening, close, xs, rfl, hxs⟩ := exists_enclosed hvs
  refine ⟨line, opening, close, xs, ws, ?_, hxs, hws⟩
  rw [List.cons_append, List.append_assoc]
  rfl

theorem prints_assign (target : Name) (value : Expression) :
    PrintsStatement (Statement.assign target value).kinds (Statement.assign target value).tree := by
  intro b ts rest hts
  obtain ⟨line, us, rfl, hus⟩ := exists_token hts
  obtain ⟨sign, vs, rfl, hvs⟩ := exists_token hus
  obtain ⟨t, ht, htree⟩ := value.prints .maximum vs rest hvs
  refine ⟨_, b, .assignment ht, ?_⟩
  show Node.binary .assign (.leaf (.identifier target.spelling) 0) t.eraseLines 0 = _
  rw [htree]
  rfl

theorem prints_write (value : Expression) :
    PrintsStatement (Statement.write value).kinds (Statement.write value).tree := by
  intro b ts rest hts
  rw [Statement.kinds, ← List.append_nil (enclosed '(' ')' _)] at hts
  obtain ⟨line, opening, close, us, vs, rfl, hus, hvs⟩ := exists_headed hts
  rw [show vs = [] from List.map_eq_nil_iff.1 hvs]
  obtain ⟨t, ht, htree⟩ := value.prints .maximum us (⟨.symbol ')', close⟩ :: rest) hus
  rw [List.cons_append, List.cons_append, List.append_assoc]
  refine ⟨_, b, .writing ht, ?_⟩
  show Node.mk .write [t.eraseLines] 0 = _
  rw [htree]
  rfl

theorem prints_read (target : Name) :
    PrintsStatement (Statement.read target).kinds (Statement.read target).tree := by
  intro b ts rest hts
  rw [Statement.kinds, ← List.append_nil (enclosed '(' ')' _)] at hts
  obtain ⟨line, opening, close, us, vs, rfl, hus, hvs⟩ := exists_headed hts
  obtain ⟨own, ws, rfl, hws⟩ := exists_token hus
  rw [show vs = [] from List.map_eq_nil_iff.1 hvs, show ws = [] from List.map_eq_nil_iff.1 hws]
  exact ⟨_, b, .reading, rfl⟩

theorem prints_returnValue (value : Expression) :
    PrintsStatement (Statement.returnValue value).kinds (Statement.returnValue value).tree := by
  intro b ts rest hts
  obtain ⟨line, us, rfl, hus⟩ := exists_token hts
  obtain ⟨t, ht, htree⟩ := value.prints .maximum us rest hus
  refine ⟨_, b, .returning ht, ?_⟩
  show Node.mk .returnValue [t.eraseLines] 0 = _
  rw [htree]
  rfl

section Guarded

variable {test : Condition} {body consequence alternative : List Statement}

/-- A keyword with a condition in parentheses and a block behind it. -/
theorem exists_guarded {k : Keyword} {kinds : List Token.Kind} {trees : List Node}
    (h : PrintsBlock kinds trees) (b : Bool) {ts : List Token} (rest : List Token)
    (hts : ts.map Token.kind = .keyword k :: (enclosed '(' ')' test.kinds ++ kinds)) :
    ∃ line opening close us vs t u,
      ts ++ rest = ⟨.keyword k, line⟩ :: ⟨.symbol '(', opening⟩ :: us ∧
        Grammar.Condition us t (⟨.symbol ')', close⟩ :: vs) ∧ Grammar.Block b vs u true rest ∧
        t.eraseLines = test.tree ∧ u.eraseLines = blockTree trees := by
  obtain ⟨line, opening, close, us, vs, rfl, hus, hvs⟩ := exists_headed hts
  obtain ⟨t, ht, htest⟩ := test.prints hus (⟨.symbol ')', close⟩ :: (vs ++ rest))
  obtain ⟨u, hu, htrees⟩ := h.exists_tree b rest hvs
  refine ⟨line, opening, close, _, _, t, u, ?_, ht, hu, htest, htrees⟩
  rw [List.cons_append, List.cons_append, List.append_assoc]
  rfl

/-- A loop, if its body prints as a block. -/
theorem prints_whileLoop
    (h : PrintsBlock (braced (Statement.kindsOfAll body)) (Statement.trees body)) :
    PrintsStatement (Statement.whileLoop test body).kinds
      (Statement.whileLoop test body).tree := by
  intro b ts rest hts
  obtain ⟨line, opening, close, us, vs, t, u, heq, ht, hu, htest, hbody⟩ :=
    exists_guarded h b rest hts
  rw [heq]
  refine ⟨_, true, .whileLoop ht hu, ?_⟩
  show Node.binary .whileLoop t.eraseLines u.eraseLines 0 = _
  rw [htest, hbody]
  rfl

theorem prints_ifThen
    (h : PrintsBlock (braced (Statement.kindsOfAll consequence)) (Statement.trees consequence)) :
    PrintsStatement (Statement.ifThen test consequence).kinds
      (Statement.ifThen test consequence).tree := by
  intro b ts rest hts
  obtain ⟨line, opening, close, us, vs, t, u, heq, ht, hu, htest, hconsequence⟩ :=
    exists_guarded h b rest hts
  rw [heq]
  refine ⟨_, true, .ifThen ht hu, ?_⟩
  show Node.binary .ifThen t.eraseLines u.eraseLines 0 = _
  rw [htest, hconsequence]
  rfl

/-- A choice with one; the word between the blocks is what keeps them apart. -/
theorem prints_ifThenElse
    (h : PrintsBlock (braced (Statement.kindsOfAll consequence)) (Statement.trees consequence))
    (h' : PrintsBlock (braced (Statement.kindsOfAll alternative)) (Statement.trees alternative)) :
    PrintsStatement (Statement.ifThenElse test consequence alternative).kinds
      (Statement.ifThenElse test consequence alternative).tree := by
  intro b ts rest hts
  rw [Statement.kinds, ← List.append_assoc, ← List.cons_append] at hts
  obtain ⟨us, vs, rfl, hus, hvs⟩ := exists_append hts
  obtain ⟨middle, ws, rfl, hws⟩ := exists_token hvs
  -- the consequence sets the flag, and the alternative starts with it
  obtain ⟨v, hv, halternative⟩ := h'.exists_tree true rest hws
  obtain ⟨line, opening, close, xs, ys, t, u, heq, ht, hu, htest, hconsequence⟩ :=
    exists_guarded h b (⟨.keyword .elseThen, middle⟩ :: (ws ++ rest)) hus
  rw [List.append_assoc, List.cons_append, heq]
  refine ⟨_, true, .ifThenElse ht hu hv, ?_⟩
  show Node.mk .ifThen [t.eraseLines, u.eraseLines, v.eraseLines] 0 = _
  rw [htest, hconsequence, halternative]
  rfl

end Guarded

theorem prints_block {body : List Statement}
    (h : PrintsBlock (braced (Statement.kindsOfAll body)) (Statement.trees body)) :
    PrintsStatement (Statement.block body).kinds (Statement.block body).tree := by
  intro b ts rest hts
  obtain ⟨t, ht, htree⟩ := h.exists_tree b rest hts
  exact ⟨t, true, .block ht, htree⟩

mutual

/-- **Statements.** -/
theorem Statement.prints : (s : Statement) → PrintsStatement s.kinds s.tree
  | .assign target value => prints_assign target value
  | .write value => prints_write value
  | .read target => prints_read target
  | .whileLoop _ body => prints_whileLoop (printsBlock (Statement.prints_of_mem body))
  | .ifThen _ consequence => prints_ifThen (printsBlock (Statement.prints_of_mem consequence))
  | .ifThenElse _ consequence alternative =>
    prints_ifThenElse (printsBlock (Statement.prints_of_mem consequence))
      (printsBlock (Statement.prints_of_mem alternative))
  | .returnValue value => prints_returnValue value
  | .block body => prints_block (printsBlock (Statement.prints_of_mem body))

/-- All statements of a list, by recursion on it, mutually with the recursion on statements. -/
theorem Statement.prints_of_mem :
    (ss : List Statement) → ∀ s ∈ ss, PrintsStatement s.kinds s.tree
  | [] => by
    intro s h
    cases h
  | s :: ss => List.forall_mem_cons.2 ⟨s.prints, Statement.prints_of_mem ss⟩

end

/-! ## Declarations and programs -/

/-- One parameter or more, with commas between them. -/
theorem exists_someParameters {x : Name} {xs : List Name} {ts : List Token} (rest : List Token)
    (hts : ts.map Token.kind =
      separated ',' ((x :: xs).map fun y => [Token.Kind.identifier y.spelling])) :
    ∃ names, Grammar.SomeParameters (ts ++ rest) names rest ∧ Node.eraseLinesOfAll names =
      (x :: xs).map fun y => Node.leaf (.identifier y.spelling) 0 := by
  induction xs generalizing x ts with
  | nil =>
    obtain ⟨line, us, rfl, hus⟩ := exists_token hts
    rw [show us = [] from List.map_eq_nil_iff.1 hus]
    exact ⟨_, .last, rfl⟩
  | cons x' xs ih =>
    obtain ⟨line, us, rfl, hus⟩ := exists_token hts
    obtain ⟨comma, vs, rfl, hvs⟩ := exists_token hus
    obtain ⟨names, hnames, htrees⟩ := ih hvs
    refine ⟨_, .cons hnames, ?_⟩
    rw [Node.eraseLinesOfAll, htrees]
    rfl

theorem exists_parameters {xs : List Name} {ts : List Token} (rest : List Token)
    (hts : ts.map Token.kind =
      separated ',' (xs.map fun y => [Token.Kind.identifier y.spelling])) :
    ∃ names, Grammar.Parameters (ts ++ rest) names rest ∧ Node.eraseLinesOfAll names =
      xs.map fun y => Node.leaf (.identifier y.spelling) 0 := by
  cases xs with
  | nil =>
    rw [show ts = [] from List.map_eq_nil_iff.1 hts]
    exact ⟨[], .none, rfl⟩
  | cons x xs =>
    obtain ⟨names, hnames, htrees⟩ := exists_someParameters rest hts
    exact ⟨names, .some hnames, htrees⟩

/-- A declaration without the lines of its tree. -/
def eraseDeclaration (d : String × Node) : String × Node := (d.1, d.2.eraseLines)

/-- A declaration, whatever the flag is before it.  Its body sets the flag. -/
theorem Function.prints (f : Function) (b : Bool) {ts : List Token} (next : Token)
    (rest : List Token) (hts : ts.map Token.kind = f.kinds) :
    ∃ d, Grammar.Declaration b (ts ++ next :: rest) d true (next :: rest) ∧
      eraseDeclaration d = f.declaration := by
  obtain ⟨line, us, rfl, hus⟩ := exists_token hts
  obtain ⟨own, vs, rfl, hvs⟩ := exists_token hus
  obtain ⟨ws, xs, rfl, hws, hxs⟩ := exists_append hvs
  obtain ⟨opening, close, ys, rfl, hys⟩ := exists_enclosed hws
  obtain ⟨names, hnames, hparameters⟩ :=
    exists_parameters (⟨.symbol ')', close⟩ :: (xs ++ next :: rest)) hys
  obtain ⟨nodes, list, brace, hblock, htrees⟩ :=
    printsBlock (Statement.prints_of_mem f.body) b xs (next :: rest) hxs
  -- the implicit `return` is appended to the list of the body, and loses its line with it
  have hbody : Node.eraseLinesOfAll (nodes ++ [Grammar.implicitReturn next.line]) =
      Statement.trees f.body ++ [Grammar.implicitReturn 0] := by
    rw [Node.eraseLinesOfAll_append, htrees]
    rfl
  simp only [List.cons_append, List.append_assoc, List.nil_append]
  refine ⟨_, .function hnames hblock, ?_⟩
  rw [eraseDeclaration, Node.eraseLines, Node.eraseLinesOfAll_append, hparameters]
  simp only [Node.eraseLinesOfAll, Node.eraseLines, hbody]
  rfl

/-- All declarations of a program, by induction on them. -/
theorem exists_declarations (functions : List Function) (b : Bool) {ts : List Token} (last : Token)
    (hts : ts.map Token.kind = kinds functions) :
    ∃ ds b', Grammar.Declarations b (ts ++ [last]) ds b' [last] ∧
      ds.map eraseDeclaration = functions.map Function.declaration := by
  induction functions generalizing b ts with
  | nil =>
    rw [show ts = [] from List.map_eq_nil_iff.1 hts]
    exact ⟨[], b, .none, rfl⟩
  | cons f fs ih =>
    rw [kinds, List.flatMap_cons] at hts
    obtain ⟨us, vs, rfl, hus, hvs⟩ := exists_append hts
    obtain ⟨ds, b', hds, htrees⟩ := ih true hvs
    -- behind a body there is a token: that of the next declaration, or the last one
    obtain ⟨next, ws, hws⟩ := exists_first vs last []
    obtain ⟨d, hd, htree⟩ := f.prints b next ws hus
    rw [← hws] at hd
    refine ⟨d :: ds, b', ?_, ?_⟩
    · rw [List.append_assoc]
      exact .cons hd hds
    · rw [List.map_cons, htree, htrees]
      rfl

/-- Lines apart, a program is given by its declarations. -/
theorem eraseLines_ofDeclarations (line : Nat) (ds : List (String × Node)) :
    (Program.ofDeclarations line ds).eraseLines = .ofDeclarations 0 (ds.map eraseDeclaration) := by
  have hroot : ∀ ds : List (String × Node), Node.eraseLinesOfAll (ds.map Prod.snd) =
      (ds.map eraseDeclaration).map Prod.snd := by
    intro ds
    induction ds with
    | nil => rfl
    | cons d ds ih =>
      rw [List.map_cons, Node.eraseLinesOfAll, ih]
      rfl
  have hnames : (ds.map eraseDeclaration).map Prod.fst = ds.map Prod.fst := by
    rw [List.map_map]
    rfl
  rw [Program.eraseLines, Program.ofDeclarations, Program.ofDeclarations, Node.eraseLines, hroot,
    hnames]

/-- The tokens of a program, closed by the end marker, are derivable. -/
theorem exists_derivation (functions : List Function) {ts : List Token} {last : Token}
    (hts : ts.map Token.kind = kinds functions) (hlast : last.kind = .finish) :
    ∃ p, Grammar.Derives (ts ++ [last]) p ∧ p.eraseLines = program functions := by
  obtain ⟨ds, b, hds, htrees⟩ := exists_declarations functions false last hts
  obtain ⟨first, us, hus⟩ := exists_first ts last []
  rw [hus] at hds
  rw [hus]
  refine ⟨_, .program hds hlast, ?_⟩
  rw [eraseLines_ofDeclarations, htrees, program]

/-- **Reading undoes printing.**  Whatever text a program is rendered as, reading it succeeds and
gives the tree of that program, up to lines; and every program can be rendered. -/
theorem parse_of_renders (functions : List Function) :
    (∀ source, Renders functions source →
      (Program.parse source).map Program.eraseLines = .ok (program functions)) ∧
    Renders functions (render functions) := by
  constructor
  · intro source h
    obtain ⟨ts, htokens, hkinds⟩ := tokens_of_layout h
    obtain ⟨p, hderives, hp⟩ := @exists_derivation functions ts (endMarker source) hkinds rfl
    rw [Program.parse_of_derives htokens hderives, ← hp]
    rfl
  · exact renders_render functions

end Scriptlet.Syntax
