import Scriptlet.Proofs.Grammar.Completeness.Program

/-!
The shape of the trees that are read.

A node is only a label with children, and most nodes mean nothing: a loop without a body, an operator
with one operand, a comparison that is added to something.  The evaluator takes nodes as they come
and halts on those it can make nothing of.  Here is which nodes the reader builds, by what they stand
for: an expression, a condition, a statement or block, a function.  A comparison is no expression, so
it stands only where a loop or a choice has its condition.

The forms are inductive predicates with one rule for each form, and the rules have exactly the parts
that the evaluator looks for.  So on a well-formed tree the evaluator's search for parts can be
skipped: a case analysis on the form gives them.  That is what the proofs about runs start from.

Two simpler facts follow from a form, and often only they are needed.  One is about children
(`IsExpression.children` and the like): below an expression there are only expressions, below a
statement only statements and conditions, and a function is nowhere below anything.  The other is
about labels (`phrase`): the label tells whether a node stands for an expression, a statement or a
function, so a node that was found by its label has a form by it.

Derivations give the forms by recursion on them, rule by rule.  The rules of the grammar and those of
the forms correspond one to one, except that parentheses and the tiers leave no trace in the tree.

Main statement: a tree that is derived from the grammar is well-formed (`wellFormed_of_derives`), so
every program that is read is (`wellFormed_of_parse`).
-/

namespace Scriptlet

namespace Node

/-! ## Expressions and conditions -/

/-- An expression: an operator has two operands, a call any number of arguments, and the rest are
leaves. -/
inductive IsExpression : Node → Prop where
  | number {x : Float} {line : Nat} : IsExpression (.leaf (.number x) line)
  | text {literal : String} {line : Nat} : IsExpression (.leaf (.text literal) line)
  | identifier {name : String} {line : Nat} : IsExpression (.leaf (.identifier name) line)
  | operator {op : Operator} {line : Nat} {left right : Node} (hleft : IsExpression left)
      (hright : IsExpression right) : IsExpression (.binary (.operator op) left right line)
  | call {name : String} {line : Nat} {arguments : List Node}
      (h : ∀ argument ∈ arguments, IsExpression argument) :
      IsExpression ⟨.call name, arguments, line⟩

/-- A condition: an expression, or a comparison of two. -/
inductive IsCondition : Node → Prop where
  | expression {t : Node} (h : IsExpression t) : IsCondition t
  | comparison {op : Comparator} {line : Nat} {left right : Node} (hleft : IsExpression left)
      (hright : IsExpression right) : IsCondition (.binary (.comparison op) left right line)

/-! ## Statements

A block is a list in a node of its own.  Lists are evaluated like statements but stand only in
blocks. -/

mutual

/-- A statement. -/
inductive IsStatement : Node → Prop where
  | assign {name : String} {own line : Nat} {value : Node} (h : IsExpression value) :
      IsStatement (.binary .assign (.leaf (.identifier name) own) value line)
  | write {line : Nat} {value : Node} (h : IsExpression value) :
      IsStatement ⟨.write, [value], line⟩
  | read {name : String} {own line : Nat} :
      IsStatement ⟨.read, [.leaf (.identifier name) own], line⟩
  | whileLoop {line : Nat} {test body : Node} (htest : IsCondition test) (hbody : IsBlock body) :
      IsStatement (.binary .whileLoop test body line)
  | ifThen {line : Nat} {test consequence : Node} (htest : IsCondition test)
      (hconsequence : IsBlock consequence) : IsStatement (.binary .ifThen test consequence line)
  | ifThenElse {line : Nat} {test consequence alternative : Node} (htest : IsCondition test)
      (hconsequence : IsBlock consequence) (halternative : IsBlock alternative) :
      IsStatement ⟨.ifThen, [test, consequence, alternative], line⟩
  | returnValue {line : Nat} {value : Node} (h : IsExpression value) :
      IsStatement ⟨.returnValue, [value], line⟩
  | block {t : Node} (h : IsBlock t) : IsStatement t

/-- A block: its only child is a list of statements. -/
inductive IsBlock : Node → Prop where
  | statements {line list : Nat} {nodes : List Node} (h : ∀ node ∈ nodes, IsStatement node) :
      IsBlock ⟨.block, [⟨.statements, nodes, list⟩], line⟩

end

/-- A name that stands for a variable: a parameter of a function. -/
inductive IsName : Node → Prop where
  | identifier {name : String} {line : Nat} : IsName (.leaf (.identifier name) line)

/-- A function: its parameters and then its body, whose list ends in the implicit `return`. -/
inductive IsFunction : Node → Prop where
  | function {name : String} {line brace list last : Nat} {parameters nodes : List Node}
      (hparameters : ∀ parameter ∈ parameters, IsName parameter)
      (hnodes : ∀ node ∈ nodes, IsStatement node) :
      IsFunction ⟨.function name,
        parameters ++
          [⟨.block, [⟨.statements, nodes ++ [Grammar.implicitReturn last], list⟩], brace⟩],
        line⟩

/-- The implicit `return` is a statement. -/
theorem isStatement_implicitReturn {line : Nat} : IsStatement (Grammar.implicitReturn line) :=
  .returnValue .text

/-- The body of a function is a block. -/
theorem isBlock_body {nodes : List Node} (line list last : Nat)
    (h : ∀ node ∈ nodes, IsStatement node) :
    IsBlock ⟨.block, [⟨.statements, nodes ++ [Grammar.implicitReturn last], list⟩], line⟩ := by
  apply IsBlock.statements
  intro node hmem
  rcases List.mem_append.1 hmem with hmem | hmem
  · exact h node hmem
  · rw [List.mem_singleton.1 hmem]
    exact isStatement_implicitReturn

end Node

/-- The tree of a program: nothing but functions. -/
structure Program.WellFormed (p : Program) : Prop where
  label : p.root.label = .program
  functions : ∀ function ∈ p.root.children, function.IsFunction

/-! ## The nodes of a program -/

/-- What a node is there for. -/
inductive Phrase where
  | program
  | function
  | statement
  | expression
  deriving DecidableEq

/-- The label of a node tells its phrase.  Conditions count as expressions, and the list of a block
as a statement. -/
def Label.phrase : Label → Phrase
  | .program => .program
  | .function _ => .function
  | .block | .statements | .assign | .write | .read | .whileLoop | .ifThen | .returnValue =>
    .statement
  | .call _ | .operator _ | .comparison _ | .number _ | .text _ | .identifier _ => .expression

namespace Node

/-- A statement, or the list of statements of a block. -/
inductive IsStatementOrList : Node → Prop where
  | statement {t : Node} (h : IsStatement t) : IsStatementOrList t
  | statements {line : Nat} {nodes : List Node} (h : ∀ node ∈ nodes, IsStatement node) :
      IsStatementOrList ⟨.statements, nodes, line⟩

/-- A node below the root of a well-formed program. -/
inductive IsInner : Node → Prop where
  | function {t : Node} (h : IsFunction t) : IsInner t
  | statement {t : Node} (h : IsStatementOrList t) : IsInner t
  | condition {t : Node} (h : IsCondition t) : IsInner t

/-- An expression is a node of a body. -/
theorem IsExpression.inner {t : Node} (h : IsExpression t) : IsInner t :=
  .condition (.expression h)

theorem IsBlock.inner {t : Node} (h : IsBlock t) : IsInner t := .statement (.statement (.block h))

/-- The two children of a node that has two. -/
theorem forall_children_binary {q : Node → Prop} {label : Label} {left right : Node} {line : Nat}
    (hleft : q left) (hright : q right) :
    ∀ child ∈ (binary label left right line).children, q child :=
  List.forall_mem_cons.2 ⟨hleft, List.forall_mem_singleton.2 hright⟩

theorem IsExpression.children {t : Node} (h : IsExpression t) :
    ∀ child ∈ t.children, IsExpression child := by
  cases h with
  | operator hleft hright => exact forall_children_binary hleft hright
  | call h => exact h
  | _ => simp [leaf]

/-- The parts of a block are nodes of a body. -/
theorem IsBlock.children {t : Node} (h : IsBlock t) : ∀ child ∈ t.children, IsInner child := by
  cases h with
  | statements h => exact List.forall_mem_singleton.2 (.statement (.statements h))

/-- The parts of a statement are nodes of a body, its condition and its blocks included. -/
theorem IsStatement.children {t : Node} (h : IsStatement t) :
    ∀ child ∈ t.children, IsInner child := by
  cases h with
  | assign h => exact forall_children_binary IsExpression.identifier.inner h.inner
  | write h => exact List.forall_mem_singleton.2 h.inner
  | read => exact List.forall_mem_singleton.2 IsExpression.identifier.inner
  | whileLoop htest hbody => exact forall_children_binary (.condition htest) hbody.inner
  | ifThen htest hconsequence =>
    exact forall_children_binary (.condition htest) hconsequence.inner
  | ifThenElse htest hconsequence halternative =>
    exact List.forall_mem_cons.2 ⟨.condition htest,
      List.forall_mem_cons.2 ⟨hconsequence.inner, List.forall_mem_singleton.2 halternative.inner⟩⟩
  | returnValue h => exact List.forall_mem_singleton.2 h.inner
  | block h => exact h.children

theorem IsFunction.children {t : Node} (h : IsFunction t) :
    ∀ child ∈ t.children, IsInner child := by
  cases h with
  | function hparameters hnodes =>
    refine List.forall_mem_append.2 ⟨fun parameter hmem => ?_, List.forall_mem_singleton.2 ?_⟩
    · cases hparameters parameter hmem
      exact IsExpression.identifier.inner
    · exact (isBlock_body _ _ _ hnodes).inner

/-- One level down. -/
theorem IsInner.children {t : Node} (h : IsInner t) : ∀ child ∈ t.children, IsInner child := by
  cases h with
  | function h => exact h.children
  | statement h =>
    cases h with
    | statement h => exact h.children
    | statements h => exact fun child hmem => .statement (.statement (h child hmem))
  | condition h =>
    cases h with
    | expression h => exact fun child hmem => (h.children child hmem).inner
    | comparison hleft hright => exact forall_children_binary hleft.inner hright.inner

/-- Any number of levels down. -/
theorem IsInner.descend {path : List Nat} {t node : Node} (h : IsInner t)
    (hnode : t.descend? path = some node) : IsInner node := by
  induction path generalizing t with
  | nil =>
    cases hnode
    exact h
  | cons i path ih =>
    obtain ⟨child, hchild, hrest⟩ := Option.bind_eq_some_iff.1 hnode
    exact ih (h.children child (List.mem_of_getElem? hchild)) hrest

/-- The label of an expression says that it is one. -/
theorem IsExpression.phrase {t : Node} (h : IsExpression t) : t.label.phrase = .expression := by
  cases h <;> rfl

/-- A condition has the label of an expression, for a comparison is evaluated like one. -/
theorem IsCondition.phrase {t : Node} (h : IsCondition t) : t.label.phrase = .expression := by
  cases h with
  | expression h => exact h.phrase
  | comparison hleft hright => rfl

/-- The label of a statement, a block or a list says that it is one. -/
theorem IsStatementOrList.phrase {t : Node} (h : IsStatementOrList t) :
    t.label.phrase = .statement := by
  cases h with
  | statement h =>
    cases h with
    | block h => cases h; rfl
    | _ => rfl
  | statements h => rfl

/-- The label of a function says that it is one. -/
theorem IsFunction.phrase {t : Node} (h : IsFunction t) : t.label.phrase = .function := by
  cases h
  rfl

end Node

namespace Program

open Node

variable {p : Program} {path : List Nat} {node : Node}

/-- Every node of a well-formed program is the root or has one of the shapes. -/
theorem WellFormed.descend (hp : p.WellFormed) (h : p.root.descend? path = some node) :
    node = p.root ∨ IsInner node := by
  cases path with
  | nil =>
    cases h
    exact Or.inl rfl
  | cons i path =>
    obtain ⟨child, hchild, hrest⟩ := Option.bind_eq_some_iff.1 h
    have hfunction := hp.functions child (List.mem_of_getElem? hchild)
    exact Or.inr (IsInner.descend (.function hfunction) hrest)

/-- A node of a program that has the label of an expression or a condition is one. -/
theorem WellFormed.isCondition (hp : p.WellFormed) (h : p.root.descend? path = some node)
    (hphrase : node.label.phrase = .expression) : IsCondition node := by
  rcases hp.descend h with rfl | hinner
  · rw [hp.label] at hphrase
    cases hphrase
  · cases hinner with
    | function h =>
      rw [h.phrase] at hphrase
      cases hphrase
    | statement h =>
      rw [h.phrase] at hphrase
      cases hphrase
    | condition h => exact h

/-- A node of a program that has the label of a statement or a list is one. -/
theorem WellFormed.isStatement (hp : p.WellFormed) (h : p.root.descend? path = some node)
    (hphrase : node.label.phrase = .statement) : IsStatementOrList node := by
  rcases hp.descend h with rfl | hinner
  · rw [hp.label] at hphrase
    cases hphrase
  · cases hinner with
    | function h =>
      rw [h.phrase] at hphrase
      cases hphrase
    | statement h => exact h
    | condition h =>
      rw [h.phrase] at hphrase
      cases hphrase

end Program

namespace Grammar

open Node

/-! ## What is derivable has this shape

By recursion on derivations, as they call each other. -/

mutual

theorem isExpression_of_derived {tier : Tier} {ts rest : List Token} {t : Node} :
    Expression tier ts t rest → IsExpression t
  | .number => .number
  | .text => .text
  | .name => .identifier
  | .parentheses inner => isExpression_of_derived inner
  | .call inner => .call (isExpression_of_arguments inner)
  | .power left right => .operator (isExpression_of_derived left) (isExpression_of_derived right)
  | .joined _ left right =>
    .operator (isExpression_of_derived left) (isExpression_of_derived right)
  | .operand _ inner => isExpression_of_derived inner

theorem isExpression_of_arguments {ts rest : List Token} {arguments : List Node} :
    Arguments ts arguments rest → ∀ argument ∈ arguments, IsExpression argument
  | .none => by simp
  | .some h => isExpression_of_someArguments h

theorem isExpression_of_someArguments {ts rest : List Token} {arguments : List Node} :
    SomeArguments ts arguments rest → ∀ argument ∈ arguments, IsExpression argument
  | .last h => List.forall_mem_singleton.2 (isExpression_of_derived h)
  | .cons first others =>
    List.forall_mem_cons.2 ⟨isExpression_of_derived first, isExpression_of_someArguments others⟩

end

/-- A condition is a comparison of two expressions or an expression. -/
theorem isCondition_of_derived {ts rest : List Token} {t : Node} (h : Condition ts t rest) :
    IsCondition t := by
  cases h with
  | expression h => exact .expression (isExpression_of_derived h)
  | comparison left sign right =>
    exact .comparison (isExpression_of_derived left) (isExpression_of_derived right)

mutual

theorem isBlock_of_derived {b b' : Bool} {ts rest : List Token} {t : Node} :
    Block b ts t b' rest → IsBlock t
  | .braces inner => .statements (isStatement_of_statements inner)

/-- The statements of a list; the empty ones have left no node. -/
theorem isStatement_of_statements {b b' : Bool} {ts rest : List Token} {nodes : List Node} :
    Statements b ts nodes b' rest → ∀ node ∈ nodes, IsStatement node
  | .last first _ => isStatement_of_derived first
  | .separated first others =>
    List.forall_mem_append.2 ⟨isStatement_of_derived first, isStatement_of_statements others⟩
  | .resumed first _ others =>
    List.forall_mem_append.2 ⟨isStatement_of_derived first, isStatement_of_statements others⟩

/-- The empty statement leaves no node; any other leaves one. -/
theorem isStatement_of_derived {b b' : Bool} {ts rest : List Token} {node : Option Node} :
    Statement b ts node b' rest → ∀ t ∈ node.toList, IsStatement t
  | .empty _ => by simp
  | .assignment right => by simpa using .assign (isExpression_of_derived right)
  | .writing inner => by simpa using .write (isExpression_of_derived inner)
  | .reading => by simpa using .read
  | .returning right => by simpa using .returnValue (isExpression_of_derived right)
  | .whileLoop guard inner => by
    simpa using .whileLoop (isCondition_of_derived guard) (isBlock_of_derived inner)
  | .ifThen guard inner => by
    simpa using .ifThen (isCondition_of_derived guard) (isBlock_of_derived inner)
  | .ifThenElse guard inner other => by
    simpa using .ifThenElse (isCondition_of_derived guard) (isBlock_of_derived inner)
      (isBlock_of_derived other)
  | .block inner => by simpa using .block (isBlock_of_derived inner)

end

theorem isName_of_someParameters {ts rest : List Token} {names : List Node}
    (h : SomeParameters ts names rest) : ∀ parameter ∈ names, IsName parameter := by
  induction h with
  | last => exact List.forall_mem_singleton.2 .identifier
  | cons others ih => exact List.forall_mem_cons.2 ⟨.identifier, ih⟩

theorem isName_of_parameters {ts rest : List Token} {names : List Node}
    (h : Parameters ts names rest) : ∀ parameter ∈ names, IsName parameter := by
  cases h with
  | none => simp
  | some h => exact isName_of_someParameters h

/-- A declaration, with the implicit `return` put behind the last statement of its body. -/
theorem isFunction_of_derived {b b' : Bool} {ts rest : List Token} {f : String × Node}
    (h : Declaration b ts f b' rest) : IsFunction f.2 := by
  cases h with
  | function parameters body =>
    cases isBlock_of_derived body with
    | statements hnodes => exact .function (isName_of_parameters parameters) hnodes

theorem isFunction_of_declarations {b b' : Bool} {ts rest : List Token}
    {functions : List (String × Node)} (h : Declarations b ts functions b' rest) :
    ∀ f ∈ functions, IsFunction f.2 := by
  induction h with
  | none => simp
  | cons head tail ih => exact List.forall_mem_cons.2 ⟨isFunction_of_derived head, ih⟩

/-- **Derivable programs are well-formed.** -/
theorem wellFormed_of_derives {ts : List Token} {p : Program} (h : Derives ts p) :
    p.WellFormed := by
  cases h with
  | program h hlast =>
    refine ⟨rfl, fun function hmem => ?_⟩
    obtain ⟨f, hf, rfl⟩ := List.mem_map.1 hmem
    exact isFunction_of_declarations h f hf

end Grammar

/-- Every program that is read is well-formed. -/
theorem Program.wellFormed_of_parse {source : String} {p : Program} (h : parse source = .ok p) :
    p.WellFormed := by
  obtain ⟨ts, -, hderives⟩ := derives_of_parse h
  exact Grammar.wellFormed_of_derives hderives

end Scriptlet
