import Scriptlet.Number.Text

/-!
Trees of programs.

A node has a label, children and the line of the source it comes from.  The label says what the
children mean: an assignment has its target and an expression, a condition stands before the
blocks it chooses between, a function's children are its parameters and then its body.  Leaves
carry a number, a text literal or a name.

Nothing in the type keeps nodes from being nonsense: any label may have any children.  Which nodes a
reader builds is said in other modules, and the functions here take any tree.  Children are looked at
by their position, so the first two have names (`first?`, `second?`), as most nodes have at most two.
-/

namespace Scriptlet

/-- The binary operators of expressions. -/
inductive Operator where
  | add
  | subtract
  | multiply
  | divide
  | remainder
  | power
  | maximum
  deriving DecidableEq, Repr

namespace Operator

/-- The symbol of an operator. -/
def symbol : Operator → Char
  | .add => '+'
  | .subtract => '-'
  | .multiply => '*'
  | .divide => '/'
  | .remainder => '%'
  | .power => '^'
  | .maximum => '$'

/-- The operator with a given symbol. -/
def ofSymbol? : Char → Option Operator
  | '+' => some .add
  | '-' => some .subtract
  | '*' => some .multiply
  | '/' => some .divide
  | '%' => some .remainder
  | '^' => some .power
  | '$' => some .maximum
  | _ => none

end Operator

/-- The comparisons of conditions. -/
inductive Comparator where
  | equal
  | greater
  | less
  deriving DecidableEq, Repr

/-- How a comparison is written. -/
def Comparator.symbol : Comparator → String
  | .equal => "=="
  | .greater => ">"
  | .less => "<"

/-- What a node stands for; a text literal is kept with its quotes. -/
inductive Label where
  | program
  | function (name : String)
  | block
  | statements
  | assign
  | write
  | read
  | whileLoop
  | ifThen
  | returnValue
  | call (name : String)
  | operator (op : Operator)
  | comparison (op : Comparator)
  | number (x : Float)
  | text (literal : String)
  | identifier (name : String)
  deriving DecidableEq

/-- The label as it is shown. -/
def Label.display : Label → String
  | .program => "program"
  | .function name => "fun " ++ name ++ "()"
  | .block => "block"
  | .statements => "stmnt_list"
  | .assign => "="
  | .write => "write"
  | .read => "read"
  | .whileLoop => "while"
  | .ifThen => "if"
  | .returnValue => "return"
  | .call name => name ++ "()"
  | .operator op => op.symbol.toString
  | .comparison op => op.symbol
  | .number x => Number.text x
  | .text literal => literal
  | .identifier name => name

/-- A node of a tree. -/
structure Node where
  label : Label
  children : List Node
  line : Nat

namespace Node

instance : Inhabited Node := ⟨⟨.program, [], 0⟩⟩

/-- A node without children. -/
def leaf (label : Label) (line : Nat) : Node := ⟨label, [], line⟩

/-- A node with two children. -/
def binary (label : Label) (left right : Node) (line : Nat) : Node := ⟨label, [left, right], line⟩

/-- Has the node no children? -/
def isLeaf (n : Node) : Bool := n.children.isEmpty

/-- The first child: left operand, condition, target or sole operand. -/
def first? (n : Node) : Option Node := n.children.head?

/-- The second child: right operand or body. -/
def second? (n : Node) : Option Node := n.children[1]?

theorem mem_of_first? {n t : Node} (h : n.first? = some t) : t ∈ n.children := List.mem_of_head? h

theorem mem_of_second? {n t : Node} (h : n.second? = some t) : t ∈ n.children :=
  List.mem_of_getElem? h

/-- The node reached by going down the given children. -/
def descend? : Node → List Nat → Option Node
  | n, [] => some n
  | n, i :: path => n.children[i]?.bind fun child => child.descend? path

/-- A child is smaller. -/
theorem sizeOf_lt_of_mem {t child : Node} (h : child ∈ t.children) : sizeOf child < sizeOf t := by
  obtain ⟨label, children, line⟩ := t
  have hlt : sizeOf child < sizeOf children := List.sizeOf_lt_of_mem h
  rw [mk.sizeOf_spec]
  omega

end Node
end Scriptlet
