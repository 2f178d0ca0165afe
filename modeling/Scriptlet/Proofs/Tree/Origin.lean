import Scriptlet.Proofs.Token.Segmentation
import Scriptlet.Proofs.Tree.Shape

/-!
Where the nodes of a program come from.

A tree keeps nothing of the source text but what its leaves and calls name, and lines.  Both are those
of tokens: for every node there is a token of the same line, and the token is what the leaf shows
(`ComesFrom`).  One literal is in no source text, that of the implicit `return`; it has the line of
the token behind the body.

The derivations are followed with the tokens that are left: what a derivation leaves is among the
tokens it started from, so the tokens of every part are tokens of the whole.  That is why each theorem
below claims two things of a derivation, about its tree and about its rest, and why all of them are
about one list `all` of tokens that stays the same while the tokens before the phrase get fewer.

`Every q t` says that `q` holds at every node of a tree.  It is an inductive predicate along the tree,
so it can be built node by node as the tree is, and taken apart along the path to a node.  It is for
more than the origin of nodes: whatever is said of every node of a program that is read is said with
it.

The last part is about literals.  A token with a text comes from a segment of the source that begins
and ends with a quote and has none in between, so a leaf with a text shows such a text (`IsLiteral`),
and `"None"`, which the implicit `return` has, is of this form too.

Main statement: every node of a program that is read comes from a token of its text or from the end
marker (`fromTokens_of_parse`).  So every text in it is a literal with its quotes
(`isLiteral_of_parse`).
-/

namespace Scriptlet

namespace Node

/-- `q` holds of all nodes of the tree, the root included. -/
inductive Every (q : Node → Prop) : Node → Prop where
  | node {t : Node} (h : q t) (hchildren : ∀ child ∈ t.children, Every q child) : Every q t

namespace Every

variable {q r : Node → Prop} {t : Node}

theorem here (h : Every q t) : q t := by
  cases h with
  | node h _ => exact h

theorem children (h : Every q t) : ∀ child ∈ t.children, Every q child := by
  cases h with
  | node _ hchildren => exact hchildren

theorem leaf {label : Label} {line : Nat} (h : q (.leaf label line)) :
    Every q (.leaf label line) := .node h (by simp [Node.leaf])

theorem binary {label : Label} {left right : Node} {line : Nat}
    (h : q (.binary label left right line)) (hleft : Every q left) (hright : Every q right) :
    Every q (.binary label left right line) := .node h (forall_children_binary hleft hright)

/-- What holds of all nodes holds of all nodes below any of them. -/
theorem descend {path : List Nat} {node : Node} (h : Every q t)
    (hnode : t.descend? path = some node) : Every q node := by
  induction path generalizing t with
  | nil =>
    cases hnode
    exact h
  | cons i path ih =>
    obtain ⟨child, hchild, hrest⟩ := Option.bind_eq_some_iff.1 hnode
    exact ih (h.children child (List.mem_of_getElem? hchild)) hrest

theorem mono (h : Every q t) (hqr : ∀ node, q node → r node) : Every r t := by
  induction h with
  | node h hchildren ih => exact .node (hqr _ h) ih

/-- What holds of nodes in general holds of those of any tree. -/
theorem of_forall (h : ∀ node, q node) (t : Node) : Every q t :=
  .node (h t) fun child _ => of_forall h child
termination_by sizeOf t
decreasing_by exact sizeOf_lt_of_mem ‹_›

end Every

/-- The node comes from the token: it has its line, and a leaf or a call shows what the token is.  The
none literal may come from any token. -/
def ComesFrom (node : Node) (token : Token) : Prop :=
  node.line = token.line ∧
    match node.label with
    | .number x => token.kind = .number x
    | .text literal => token.kind = .text literal ∨ literal = Value.noneLiteral
    | .identifier name | .call name => token.kind = .identifier name
    | _ => True

/-- Every node of the tree comes from one of the tokens. -/
def FromTokens (all : List Token) (t : Node) : Prop :=
  t.Every fun node => ∃ token ∈ all, node.ComesFrom token

end Node

namespace Grammar

open Node

variable {all : List Token}

/-! ## Expressions -/

mutual

/-- An expression has its line, and the names and numbers in it, from its tokens. -/
theorem fromTokens_of_derived {tier : Tier} {ts rest : List Token} {t : Node} :
    Expression tier ts t rest → ts ⊆ all → FromTokens all t ∧ rest ⊆ all
  -- each rule takes its tokens off one by one, and what is left after them is a part of `all`, too
  | .number, h => by
    obtain ⟨hfirst, hrest⟩ := List.cons_subset.1 h
    exact ⟨.leaf ⟨_, hfirst, rfl, rfl⟩, hrest⟩
  | .text, h => by
    obtain ⟨hfirst, hrest⟩ := List.cons_subset.1 h
    exact ⟨.leaf ⟨_, hfirst, rfl, Or.inl rfl⟩, hrest⟩
  | .name, h => by
    obtain ⟨hfirst, hrest⟩ := List.cons_subset.1 h
    exact ⟨.leaf ⟨_, hfirst, rfl, rfl⟩, hrest⟩
  | .parentheses inner, h => by
    obtain ⟨ht, hclose⟩ := fromTokens_of_derived inner (List.cons_subset.1 h).2
    exact ⟨ht, (List.cons_subset.1 hclose).2⟩
  | .call inner, h => by
    obtain ⟨hname, hopening⟩ := List.cons_subset.1 h
    obtain ⟨harguments, hclose⟩ := fromTokens_of_arguments inner (List.cons_subset.1 hopening).2
    exact ⟨.node ⟨_, hname, rfl, rfl⟩ harguments, (List.cons_subset.1 hclose).2⟩
  | .power left right, h => by
    obtain ⟨hbase, hrest⟩ := fromTokens_of_derived left h
    obtain ⟨hsign, hrest⟩ := List.cons_subset.1 hrest
    obtain ⟨hexponent, hrest⟩ := fromTokens_of_derived right hrest
    exact ⟨.binary ⟨_, hsign, rfl, trivial⟩ hbase hexponent, hrest⟩
  | .joined _ left right, h => by
    obtain ⟨hleft, hrest⟩ := fromTokens_of_derived left h
    obtain ⟨hsign, hrest⟩ := List.cons_subset.1 hrest
    obtain ⟨hright, hrest⟩ := fromTokens_of_derived right hrest
    exact ⟨.binary ⟨_, hsign, rfl, trivial⟩ hleft hright, hrest⟩
  | .operand _ inner, h => fromTokens_of_derived inner h

theorem fromTokens_of_arguments {ts rest : List Token} {arguments : List Node} :
    Arguments ts arguments rest → ts ⊆ all →
      (∀ argument ∈ arguments, FromTokens all argument) ∧ rest ⊆ all
  | .none, h => ⟨by simp, h⟩
  | .some inner, h => fromTokens_of_someArguments inner h

theorem fromTokens_of_someArguments {ts rest : List Token} {arguments : List Node} :
    SomeArguments ts arguments rest → ts ⊆ all →
      (∀ argument ∈ arguments, FromTokens all argument) ∧ rest ⊆ all
  | .last inner, h => by
    obtain ⟨hargument, hrest⟩ := fromTokens_of_derived inner h
    exact ⟨List.forall_mem_singleton.2 hargument, hrest⟩
  | .cons first others, h => by
    obtain ⟨hargument, hrest⟩ := fromTokens_of_derived first h
    obtain ⟨hmore, hrest⟩ := fromTokens_of_someArguments others (List.cons_subset.1 hrest).2
    exact ⟨List.forall_mem_cons.2 ⟨hargument, hmore⟩, hrest⟩

end

/-- The sign of a comparison has the line of its first token. -/
theorem exists_token_of_sign {ts rest : List Token} {op : Comparator} {line : Nat}
    (hsign : Sign ts op line rest) (h : ts ⊆ all) :
    (∃ token ∈ all, line = token.line) ∧ rest ⊆ all := by
  cases hsign with
  | doubled =>
    obtain ⟨hfirst, hrest⟩ := List.cons_subset.1 h
    exact ⟨⟨_, hfirst, rfl⟩, (List.cons_subset.1 hrest).2⟩
  | _ =>
    obtain ⟨hfirst, hrest⟩ := List.cons_subset.1 h
    exact ⟨⟨_, hfirst, rfl⟩, hrest⟩

/-- A comparison has the line of its sign. -/
theorem fromTokens_of_condition {ts rest : List Token} {t : Node} (hderived : Condition ts t rest)
    (h : ts ⊆ all) : FromTokens all t ∧ rest ⊆ all := by
  cases hderived with
  | expression inner => exact fromTokens_of_derived inner h
  | comparison left sign right =>
    obtain ⟨hleft, hrest⟩ := fromTokens_of_derived left h
    obtain ⟨⟨token, htoken, hline⟩, hrest⟩ := exists_token_of_sign sign hrest
    obtain ⟨hright, hrest⟩ := fromTokens_of_derived right hrest
    exact ⟨.binary ⟨token, htoken, hline, trivial⟩ hleft hright, hrest⟩

/-! ## Statements -/

mutual

/-- A block has the line of its brace, the list in it that of the token behind. -/
theorem fromTokens_of_block {b b' : Bool} {ts rest : List Token} {t : Node} :
    Block b ts t b' rest → ts ⊆ all → FromTokens all t ∧ rest ⊆ all
  | .braces inner, h => by
    obtain ⟨hbrace, hrest⟩ := List.cons_subset.1 h
    have hfirst := (List.cons_subset.1 hrest).1
    obtain ⟨hnodes, hclose⟩ := fromTokens_of_statements inner hrest
    have hlist : FromTokens all ⟨.statements, _, _⟩ := .node ⟨_, hfirst, rfl, trivial⟩ hnodes
    exact ⟨.node ⟨_, hbrace, rfl, trivial⟩ (List.forall_mem_singleton.2 hlist),
      (List.cons_subset.1 hclose).2⟩

theorem fromTokens_of_statements {b b' : Bool} {ts rest : List Token} {nodes : List Node} :
    Statements b ts nodes b' rest → ts ⊆ all →
      (∀ node ∈ nodes, FromTokens all node) ∧ rest ⊆ all
  | .last first _, h => fromTokens_of_statement first h
  | .separated first others, h => by
    obtain ⟨hfirst, hrest⟩ := fromTokens_of_statement first h
    obtain ⟨hmore, hrest⟩ := fromTokens_of_statements others (List.cons_subset.1 hrest).2
    exact ⟨List.forall_mem_append.2 ⟨hfirst, hmore⟩, hrest⟩
  | .resumed first _ others, h => by
    obtain ⟨hfirst, hrest⟩ := fromTokens_of_statement first h
    obtain ⟨hmore, hrest⟩ := fromTokens_of_statements others hrest
    exact ⟨List.forall_mem_append.2 ⟨hfirst, hmore⟩, hrest⟩

/-- A statement has the line of its first token; an empty one has left no node. -/
theorem fromTokens_of_statement {b b' : Bool} {ts rest : List Token} {node : Option Node} :
    Statement b ts node b' rest → ts ⊆ all →
      (∀ t ∈ node.toList, FromTokens all t) ∧ rest ⊆ all
  | .empty _, h => ⟨by simp, h⟩
  -- a statement has the line of its first token
  | .assignment right, h => by
    obtain ⟨hname, hrest⟩ := List.cons_subset.1 h
    obtain ⟨hvalue, hrest⟩ := fromTokens_of_derived right (List.cons_subset.1 hrest).2
    have htarget : FromTokens all (.leaf (.identifier _) _) := .leaf ⟨_, hname, rfl, rfl⟩
    exact ⟨List.forall_mem_singleton.2 (.binary ⟨_, hname, rfl, trivial⟩ htarget hvalue), hrest⟩
  | .writing inner, h => by
    obtain ⟨hword, hrest⟩ := List.cons_subset.1 h
    obtain ⟨hvalue, hrest⟩ := fromTokens_of_derived inner (List.cons_subset.1 hrest).2
    have hnode : FromTokens all ⟨.write, [_], _⟩ :=
      .node ⟨_, hword, rfl, trivial⟩ (List.forall_mem_singleton.2 hvalue)
    exact ⟨List.forall_mem_singleton.2 hnode, (List.cons_subset.1 hrest).2⟩
  | .reading, h => by
    obtain ⟨hword, hrest⟩ := List.cons_subset.1 h
    obtain ⟨hname, hrest⟩ := List.cons_subset.1 (List.cons_subset.1 hrest).2
    have htarget : FromTokens all (.leaf (.identifier _) _) := .leaf ⟨_, hname, rfl, rfl⟩
    have hnode : FromTokens all ⟨.read, [_], _⟩ :=
      .node ⟨_, hword, rfl, trivial⟩ (List.forall_mem_singleton.2 htarget)
    exact ⟨List.forall_mem_singleton.2 hnode, (List.cons_subset.1 hrest).2⟩
  | .returning right, h => by
    obtain ⟨hword, hrest⟩ := List.cons_subset.1 h
    obtain ⟨hvalue, hrest⟩ := fromTokens_of_derived right hrest
    have hnode : FromTokens all ⟨.returnValue, [_], _⟩ :=
      .node ⟨_, hword, rfl, trivial⟩ (List.forall_mem_singleton.2 hvalue)
    exact ⟨List.forall_mem_singleton.2 hnode, hrest⟩
  | .whileLoop guard inner, h => by
    obtain ⟨hword, hrest⟩ := List.cons_subset.1 h
    obtain ⟨htest, hrest⟩ := fromTokens_of_condition guard (List.cons_subset.1 hrest).2
    obtain ⟨hbody, hrest⟩ := fromTokens_of_block inner (List.cons_subset.1 hrest).2
    exact ⟨List.forall_mem_singleton.2 (.binary ⟨_, hword, rfl, trivial⟩ htest hbody), hrest⟩
  | .ifThen guard inner, h => by
    obtain ⟨hword, hrest⟩ := List.cons_subset.1 h
    obtain ⟨htest, hrest⟩ := fromTokens_of_condition guard (List.cons_subset.1 hrest).2
    obtain ⟨hbody, hrest⟩ := fromTokens_of_block inner (List.cons_subset.1 hrest).2
    exact ⟨List.forall_mem_singleton.2 (.binary ⟨_, hword, rfl, trivial⟩ htest hbody), hrest⟩
  | .ifThenElse guard inner other, h => by
    obtain ⟨hword, hrest⟩ := List.cons_subset.1 h
    obtain ⟨htest, hrest⟩ := fromTokens_of_condition guard (List.cons_subset.1 hrest).2
    obtain ⟨hconsequence, hrest⟩ := fromTokens_of_block inner (List.cons_subset.1 hrest).2
    obtain ⟨halternative, hrest⟩ := fromTokens_of_block other (List.cons_subset.1 hrest).2
    have hnode : FromTokens all ⟨.ifThen, [_, _, _], _⟩ := .node ⟨_, hword, rfl, trivial⟩
      (List.forall_mem_cons.2 ⟨htest,
        List.forall_mem_cons.2 ⟨hconsequence, List.forall_mem_singleton.2 halternative⟩⟩)
    exact ⟨List.forall_mem_singleton.2 hnode, hrest⟩
  | .block inner, h => by
    obtain ⟨hblock, hrest⟩ := fromTokens_of_block inner h
    exact ⟨List.forall_mem_singleton.2 hblock, hrest⟩

end

/-! ## Programs -/

theorem fromTokens_of_someParameters {ts rest : List Token} {names : List Node}
    (hderived : SomeParameters ts names rest) (h : ts ⊆ all) :
    (∀ name ∈ names, FromTokens all name) ∧ rest ⊆ all := by
  induction hderived with
  | last =>
    obtain ⟨hname, hrest⟩ := List.cons_subset.1 h
    exact ⟨List.forall_mem_singleton.2 (.leaf ⟨_, hname, rfl, rfl⟩), hrest⟩
  | cons others ih =>
    obtain ⟨hname, hrest⟩ := List.cons_subset.1 h
    obtain ⟨hmore, hrest⟩ := ih (List.cons_subset.1 hrest).2
    exact ⟨List.forall_mem_cons.2 ⟨.leaf ⟨_, hname, rfl, rfl⟩, hmore⟩, hrest⟩

theorem fromTokens_of_parameters {ts rest : List Token} {names : List Node}
    (hderived : Parameters ts names rest) (h : ts ⊆ all) :
    (∀ name ∈ names, FromTokens all name) ∧ rest ⊆ all := by
  cases hderived with
  | none => exact ⟨by simp, h⟩
  | some hnames => exact fromTokens_of_someParameters hnames h

/-- The implicit `return` comes from the token whose line it has. -/
theorem fromTokens_implicitReturn {next : Token} (h : next ∈ all) :
    FromTokens all (implicitReturn next.line) :=
  .node ⟨next, h, rfl, trivial⟩ (List.forall_mem_singleton.2 (.leaf ⟨next, h, rfl, Or.inr rfl⟩))

/-- A body comes from the tokens as its block does. -/
theorem fromTokens_body {nodes : List Node} {list line : Nat} {last : Node}
    (hblock : FromTokens all ⟨.block, [⟨.statements, nodes, list⟩], line⟩)
    (hlast : FromTokens all last) :
    FromTokens all ⟨.block, [⟨.statements, nodes ++ [last], list⟩], line⟩ := by
  have hlist := hblock.children _ List.mem_cons_self
  refine .node hblock.here (List.forall_mem_singleton.2 (.node hlist.here ?_))
  exact List.forall_mem_append.2 ⟨hlist.children, List.forall_mem_singleton.2 hlast⟩

/-- A declaration; its implicit `return` has the line of the token behind the body. -/
theorem fromTokens_of_declaration {b b' : Bool} {ts rest : List Token} {f : String × Node}
    (hderived : Declaration b ts f b' rest) (h : ts ⊆ all) : FromTokens all f.2 ∧ rest ⊆ all := by
  cases hderived with
  | function parameters body =>
    obtain ⟨hword, hrest⟩ := List.cons_subset.1 h
    obtain ⟨hopening, hrest⟩ := List.cons_subset.1 (List.cons_subset.1 hrest).2
    obtain ⟨hnames, hrest⟩ := fromTokens_of_parameters parameters hrest
    obtain ⟨hbody, hrest⟩ := fromTokens_of_block body (List.cons_subset.1 hrest).2
    have hbody' := fromTokens_body hbody (fromTokens_implicitReturn (List.cons_subset.1 hrest).1)
    exact ⟨.node ⟨_, hword, rfl, trivial⟩
      (List.forall_mem_append.2 ⟨hnames, List.forall_mem_singleton.2 hbody'⟩), hrest⟩

theorem fromTokens_of_declarations {b b' : Bool} {ts rest : List Token}
    {functions : List (String × Node)} (hderived : Declarations b ts functions b' rest)
    (h : ts ⊆ all) : ∀ f ∈ functions, FromTokens all f.2 := by
  induction hderived with
  | none => simp
  | cons head tail ih =>
    obtain ⟨hfirst, hrest⟩ := fromTokens_of_declaration head h
    exact List.forall_mem_cons.2 ⟨hfirst, ih hrest⟩

/-- **Every node of a derived program comes from one of its tokens.** -/
theorem fromTokens_of_derives {ts : List Token} {p : Program} (h : Derives ts p) :
    FromTokens ts p.root := by
  cases h with
  | program h hlast =>
    refine .node ⟨_, List.mem_cons_self, rfl, trivial⟩ fun function hmem => ?_
    obtain ⟨f, hf, rfl⟩ := List.mem_map.1 hmem
    exact fromTokens_of_declarations h (List.Subset.refl _) f hf

end Grammar

/-! ## Literals -/

/-- A text with its quotes, and none between them. -/
def IsLiteral (s : String) : Prop :=
  ∃ body, quoteMark ∉ body ∧ s = String.ofList (quoteMark :: (body ++ [quoteMark]))

/-- The text of the implicit `return` is a literal like those of a source. -/
theorem isLiteral_noneLiteral : IsLiteral Value.noneLiteral :=
  ⟨['N', 'o', 'n', 'e'], by decide, rfl⟩

/-- A literal starts with a quote. -/
theorem IsLiteral.startsQuoted {s : String} (h : IsLiteral s) : Value.startsQuoted s = true := by
  obtain ⟨body, -, rfl⟩ := h
  simp [Value.startsQuoted]

/-- A token that is a text is a literal. -/
theorem Fits.isLiteral {text rest : List Char} {s : String} (h : Fits text (.text s) rest) :
    IsLiteral s := by
  generalize hkind : Token.Kind.text s = kind at h
  cases h with
  | literal hquote =>
    cases hkind
    exact ⟨_, hquote, rfl⟩
  | word =>
    unfold wordKind at hkind
    split at hkind <;> cases hkind
  | _ => cases hkind

/-- Tokens of texts have the quotes of the segments that they come from. -/
theorem Segmented.isLiteral {line : Nat} {text rest : List Char} {ts : List Token}
    (h : Segmented line text ts rest) : ∀ t ∈ ts, ∀ s, t.kind = .text s → IsLiteral s := by
  intro t ht s hkind
  obtain ⟨own, following, hfits, -⟩ := h.exists_fits t ht
  rw [hkind] at hfits
  exact hfits.isLiteral

namespace Program

open Node

variable {source : String} {p : Program}

/-- **Every node of a program comes from a token of its text**, or from the end marker. -/
theorem fromTokens_of_parse (h : parse source = .ok p) :
    ∃ ts, tokens source = .ok ts ∧ FromTokens (ts ++ [endMarker source]) p.root := by
  obtain ⟨ts, hts, hderives⟩ := derives_of_parse h
  exact ⟨ts, hts, Grammar.fromTokens_of_derives hderives⟩

/-- Every text in a program that is read is a literal. -/
theorem isLiteral_of_parse (h : parse source = .ok p) :
    p.root.Every fun node => ∀ s, node.label = .text s → IsLiteral s := by
  obtain ⟨ts, hts, hfrom⟩ := fromTokens_of_parse h
  refine hfrom.mono ?_
  rintro node ⟨token, htoken, hfrom⟩ s hlabel
  have hkind := hfrom.2
  rw [hlabel] at hkind
  rcases hkind with hkind | rfl
  · rcases List.mem_append.1 htoken with hmem | hmem
    · exact (segmented_of_tokens hts).isLiteral token hmem s hkind
    · rw [List.mem_singleton.1 hmem] at hkind
      cases hkind
  · exact isLiteral_noneLiteral

end Program
end Scriptlet
