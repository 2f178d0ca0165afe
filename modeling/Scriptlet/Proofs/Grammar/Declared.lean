import Mathlib.Data.List.Forall2
import Scriptlet.Proofs.Grammar.Rules
import Scriptlet.Proofs.Tree.Names

/-!
The declarations of a source text, seen in its tokens.

The reserved word for a function stands nowhere but at the start of a declaration.  So the
declarations can be found without reading anything else: there is one from each such word on
(`declaredFrom`), and its heading is what stands before the first closing parenthesis (`headingOf?`).

This is a way to count declarations that knows nothing of the grammar.  It goes through the tokens
once and looks at their kinds, so what it finds can be compared with the tree: a statement about "the
declarations of a text" need not presuppose that the text was read correctly.

The proof is by recursion on derivations.  Expressions, conditions, blocks and statements contribute
nothing (`declaredFrom_expression` and so on): what is found in the tokens before such a phrase is
what is found behind it.  Each of these lemmas goes through the rules of the grammar, and by `simp`
over the tokens that a rule takes, none of which is the word.  A declaration contributes itself.

Main statement: in a derivation there is one function for each declaration that is found in this way,
in the same order, derived from the tokens of that place and with the heading that stands there
(`Declarations.declares`).
-/

namespace Scriptlet

/-- What a declaration says before its body: its line, the name, and those of the parameters. -/
structure Heading where
  line : Nat
  name : String
  parameters : List String
  deriving DecidableEq

/-- The heading of a function. -/
def Node.heading? (t : Node) : Option Heading :=
  match t.label with
  | .function name => some ⟨t.line, name, t.children.dropLast.filterMap Node.name?⟩
  | _ => none

namespace Grammar

/-- The tokens from each word for a function on. -/
def declaredFrom : List Token → List (List Token)
  | [] => []
  | t :: ts =>
    if t.kind = .keyword .function then (t :: ts) :: declaredFrom ts else declaredFrom ts

/-- The names before the first closing parenthesis. -/
def namesIn : List Token → List String
  | [] => []
  | ⟨.symbol ')', _⟩ :: _ => []
  | ⟨.identifier name, _⟩ :: ts => name :: namesIn ts
  | _ :: ts => namesIn ts

/-- The heading that stands at the start of the tokens. -/
def headingOf? : List Token → Option Heading
  | ⟨.keyword .function, line⟩ :: ⟨.identifier name, _⟩ :: ts => some ⟨line, name, namesIn ts⟩
  | _ => none

/-- The function is derived from the first of the tokens, and has the heading that stands there. -/
structure Declares (ts : List Token) (function : Node) : Prop where
  derived : ∃ b name b' rest, Declaration b ts (name, function) b' rest
  heading : ∃ heading, headingOf? ts = some heading ∧ function.heading? = some heading

/-- Token by token, a declaration is found at each of the words. -/
@[simp] theorem declaredFrom_cons {t : Token} {ts : List Token} :
    declaredFrom (t :: ts) =
      if t.kind = .keyword .function then (t :: ts) :: declaredFrom ts else declaredFrom ts := rfl

/-! ## Nothing but a declaration starts with the word

What is found before a phrase is found behind it, rule by rule. -/

mutual

theorem declaredFrom_expression {tier : Tier} {ts rest : List Token} {t : Node} :
    Expression tier ts t rest → declaredFrom ts = declaredFrom rest
  | .number => by simp
  | .text => by simp
  | .name => by simp
  | .parentheses inner => by simpa using declaredFrom_expression inner
  | .call inner => by simpa using declaredFrom_arguments inner
  | .power left right => by
    rw [declaredFrom_expression left]
    simpa using declaredFrom_expression right
  | .joined _ left right => by
    rw [declaredFrom_expression left]
    simpa using declaredFrom_expression right
  | .operand _ inner => declaredFrom_expression inner

/-- None starts in the arguments of a call. -/
theorem declaredFrom_arguments {ts rest : List Token} {arguments : List Node} :
    Arguments ts arguments rest → declaredFrom ts = declaredFrom rest
  | .none => rfl
  | .some h => declaredFrom_someArguments h

theorem declaredFrom_someArguments {ts rest : List Token} {arguments : List Node} :
    SomeArguments ts arguments rest → declaredFrom ts = declaredFrom rest
  | .last h => declaredFrom_expression h
  | .cons first others => by
    rw [declaredFrom_expression first]
    simpa using declaredFrom_someArguments others

end

theorem declaredFrom_condition {ts rest : List Token} {t : Node} (h : Condition ts t rest) :
    declaredFrom ts = declaredFrom rest := by
  cases h with
  | expression h => exact declaredFrom_expression h
  | comparison left sign right =>
    rw [declaredFrom_expression left, ← declaredFrom_expression right]
    cases sign <;> simp

mutual

theorem declaredFrom_block {b b' : Bool} {ts rest : List Token} {t : Node} :
    Block b ts t b' rest → declaredFrom ts = declaredFrom rest
  | .braces inner => by
    simpa using declaredFrom_statements inner

theorem declaredFrom_statements {b b' : Bool} {ts rest : List Token} {nodes : List Node} :
    Statements b ts nodes b' rest → declaredFrom ts = declaredFrom rest
  | .last first _ => declaredFrom_statement first
  | .separated first others => by
    rw [declaredFrom_statement first]
    simpa using declaredFrom_statements others
  | .resumed first _ others => by
    rw [declaredFrom_statement first]
    exact declaredFrom_statements others

theorem declaredFrom_statement {b b' : Bool} {ts rest : List Token} {node : Option Node} :
    Statement b ts node b' rest → declaredFrom ts = declaredFrom rest
  | .empty _ => rfl
  | .assignment right => by simpa using declaredFrom_expression right
  | .writing inner => by simpa using declaredFrom_expression inner
  | .reading => by simp
  | .returning right => by simpa using declaredFrom_expression right
  | .whileLoop guard inner => by
    simpa [declaredFrom_condition guard] using declaredFrom_block inner
  | .ifThen guard inner => by
    simpa [declaredFrom_condition guard] using declaredFrom_block inner
  | .ifThenElse guard inner other => by
    simpa [declaredFrom_condition guard, declaredFrom_block inner] using declaredFrom_block other
  | .block inner => declaredFrom_block inner

end

/-! ## Declarations -/

theorem declaredFrom_someParameters {ts rest : List Token} {names : List Node}
    (h : SomeParameters ts names rest) : declaredFrom ts = declaredFrom rest := by
  induction h with
  | last => simp
  | cons others ih => simpa using ih

theorem declaredFrom_parameters {ts rest : List Token} {names : List Node}
    (h : Parameters ts names rest) : declaredFrom ts = declaredFrom rest := by
  cases h with
  | none => rfl
  | some h => exact declaredFrom_someParameters h

/-- A declaration is found where it starts, and none inside it. -/
theorem declaredFrom_declaration {b b' : Bool} {ts rest : List Token} {function : String × Node}
    (h : Declaration b ts function b' rest) : declaredFrom ts = ts :: declaredFrom rest := by
  cases h with
  | function parameters body =>
    simpa [declaredFrom_parameters parameters] using declaredFrom_block body

/-- The names before the closing parenthesis are those of the parameters. -/
theorem namesIn_parameters {ts us : List Token} {names : List Node} {close : Nat}
    (h : Parameters ts names (⟨.symbol ')', close⟩ :: us)) :
    namesIn ts = names.filterMap Node.name? := by
  cases h with
  | none => simp [namesIn]
  | some h =>
    generalize hrest : (⟨.symbol ')', close⟩ :: us : List Token) = rest at h
    induction h with
    | last =>
      rw [← hrest]
      simp [namesIn, Node.name?, Node.leaf]
    | cons others ih => simp [namesIn, Node.name?, Node.leaf, ih hrest]

/-- A declaration is found at its first token, with its heading. -/
theorem Declaration.declares {b b' : Bool} {ts rest : List Token} {function : String × Node}
    (h : Declaration b ts function b' rest) : Declares ts function.2 := by
  obtain ⟨name, node⟩ := function
  refine ⟨⟨b, name, b', rest, h⟩, ?_⟩
  cases h with
  | function parameters body =>
    refine ⟨_, rfl, ?_⟩
    simp [Node.heading?, namesIn, namesIn_parameters parameters]

/-- **There is one function for each declaration**, in the order of the tokens. -/
theorem Declarations.declares {b b' : Bool} {ts rest : List Token}
    {functions : List (String × Node)} (h : Declarations b ts functions b' rest)
    (hrest : declaredFrom rest = []) :
    List.Forall₂ Declares (declaredFrom ts) (functions.map Prod.snd) := by
  induction h with
  | none =>
    rw [hrest]
    exact .nil
  | cons head tail ih =>
    rw [declaredFrom_declaration head, List.map_cons]
    exact .cons head.declares (ih hrest)

end Grammar
end Scriptlet
