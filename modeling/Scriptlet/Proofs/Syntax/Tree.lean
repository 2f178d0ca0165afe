import Scriptlet.Grammar.Declaration
import Scriptlet.Proofs.Grammar.Rules

/-!
Programs apart from any text: the abstract syntax.

A node of a tree may have any label and any children.  Here are only those programs that can be
written: a comparison stands at the top of a condition and nowhere else, a loop has one block and a
choice one or two, and a leaf can be spelled.  So every value of these types is a program, and
`program` gives the tree that it stands for.

The trees of abstract programs have no lines.  `Node.eraseLines` takes them off a tree that was read.

The types carry the conditions on what can be spelled.  A number is finite and has no sign, a literal
has neither a quote nor a comment mark inside, a name is a word that the scanner takes for a name.  So
nothing has to be assumed of an abstract program when it is printed.  What is not excluded is also of
interest: a name may be declared twice, as a function or as a parameter, and a program need have no
entry point.

A body has one `return` more in the tree than in the syntax, as the reader puts one behind every body
(`Function.declaration`).
-/

namespace Scriptlet

/-! ## Trees without lines -/

mutual

/-- The tree with every line set to 0. -/
def Node.eraseLines : Node → Node
  | ⟨label, children, _⟩ => ⟨label, Node.eraseLinesOfAll children, 0⟩

/-- The trees of a list, each with every line set to 0. -/
def Node.eraseLinesOfAll : List Node → List Node
  | [] => []
  | t :: ts => t.eraseLines :: Node.eraseLinesOfAll ts

end

theorem Node.eraseLinesOfAll_append (ts us : List Node) :
    eraseLinesOfAll (ts ++ us) = eraseLinesOfAll ts ++ eraseLinesOfAll us := by
  induction ts with
  | nil => rfl
  | cons t ts ih =>
    show t.eraseLines :: eraseLinesOfAll (ts ++ us) = _
    rw [ih]
    rfl

/-- The program with every line set to 0; functions keep their positions. -/
def Program.eraseLines (p : Program) : Program := { p with root := p.root.eraseLines }

namespace Syntax

/-! ## Leaves -/

/-- A number that a program can contain: finite, and with a cleared sign bit. -/
structure Numeral where
  value : Float
  unsigned : Binary.isNegative value = false
  finite : Binary.rankOf value < Binary.infinityRank

/-- A text literal without its quotes: neither a quote nor a comment can stand in it. -/
structure Literal where
  body : List Char
  unquoted : quoteMark ∉ body
  unmarked : commentMark ∉ body

/-- The literal as a program spells it. -/
def Literal.quoted (s : Literal) : String := String.ofList (quoteMark :: (s.body ++ [quoteMark]))

/-- A name: a letter, then anything but delimiters and comment marks, and no reserved word. -/
structure Name where
  first : Char
  others : List Char
  letter : Text.isLetter first = true
  inWord : ∀ c ∈ others, inWord c = true
  unmarked : commentMark ∉ others
  unreserved : Keyword.ofSpelling? (String.ofList (first :: others)) = none

/-- The name as a program spells it. -/
def Name.spelling (x : Name) : String := String.ofList (x.first :: x.others)

/-! ## Phrases -/

/-- An expression. -/
inductive Expression where
  | number (x : Numeral)
  | text (s : Literal)
  | name (x : Name)
  | operation (op : Operator) (left right : Expression)
  | call (function : Name) (arguments : List Expression)

/-- A condition: an expression, or one comparison of two. -/
inductive Condition where
  | expression (e : Expression)
  | comparison (op : Comparator) (left right : Expression)

/-- A statement.  A block is its list of statements. -/
inductive Statement where
  | assign (target : Name) (value : Expression)
  | write (value : Expression)
  | read (target : Name)
  | whileLoop (test : Condition) (body : List Statement)
  | ifThen (test : Condition) (consequence : List Statement)
  | ifThenElse (test : Condition) (consequence alternative : List Statement)
  | returnValue (value : Expression)
  | block (body : List Statement)

/-- A function.  Names may be declared twice, as functions and as parameters. -/
structure Function where
  name : Name
  parameters : List Name
  body : List Statement

/-! ## The trees they stand for -/

mutual

def Expression.tree : Expression → Node
  | .number x => .leaf (.number x.value) 0
  | .text s => .leaf (.text s.quoted) 0
  | .name x => .leaf (.identifier x.spelling) 0
  | .operation op left right => .binary (.operator op) left.tree right.tree 0
  | .call function arguments => ⟨.call function.spelling, Expression.trees arguments, 0⟩

def Expression.trees : List Expression → List Node
  | [] => []
  | e :: es => e.tree :: Expression.trees es

end

def Condition.tree : Condition → Node
  | .expression e => e.tree
  | .comparison op left right => .binary (.comparison op) left.tree right.tree 0

/-- The node of a block, given those of its statements. -/
def blockTree (nodes : List Node) : Node := ⟨.block, [⟨.statements, nodes, 0⟩], 0⟩

mutual

def Statement.tree : Statement → Node
  | .assign target value =>
    .binary .assign (.leaf (.identifier target.spelling) 0) value.tree 0
  | .write value => ⟨.write, [value.tree], 0⟩
  | .read target => ⟨.read, [.leaf (.identifier target.spelling) 0], 0⟩
  | .whileLoop test body => .binary .whileLoop test.tree (blockTree (Statement.trees body)) 0
  | .ifThen test consequence =>
    .binary .ifThen test.tree (blockTree (Statement.trees consequence)) 0
  | .ifThenElse test consequence alternative =>
    ⟨.ifThen, [test.tree, blockTree (Statement.trees consequence),
      blockTree (Statement.trees alternative)], 0⟩
  | .returnValue value => ⟨.returnValue, [value.tree], 0⟩
  | .block body => blockTree (Statement.trees body)

def Statement.trees : List Statement → List Node
  | [] => []
  | s :: ss => s.tree :: Statement.trees ss

end

/-- The declaration of a function: its parameters, and its body with the implicit `return`. -/
def Function.declaration (f : Function) : String × Node :=
  (f.name.spelling, ⟨.function f.name.spelling,
    (f.parameters.map fun x => .leaf (.identifier x.spelling) 0) ++
      [blockTree (Statement.trees f.body ++ [Grammar.implicitReturn 0])], 0⟩)

/-- The program of a list of functions. -/
def program (functions : List Function) : Program :=
  .ofDeclarations 0 (functions.map Function.declaration)

end Syntax
end Scriptlet
