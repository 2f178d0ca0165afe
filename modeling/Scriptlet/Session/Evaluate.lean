import Scriptlet.Grammar.Declaration
import Scriptlet.Program
import Scriptlet.Session

/-!
Evaluation of trees.

`step` is one level of evaluation: it does what a node says and leaves the evaluation of its
children to `eval`.  `evaluate` is `step` with itself below, as many levels deep as there is fuel;
a loop may go round as many times as there are levels.  So whatever holds of `eval` and is kept by
`step` holds of `evaluate`, and every helper here takes `eval` as its argument.

Operands are evaluated from left to right, and the first fault wins.

A source text is read first, and only a text that is a program is run.  So an error in the text comes
before any output is written and any input is read.

A completion says how a node has ended: an expression with a value, a statement normally or by
returning one.  A `return` hands the record of the caller back by itself, before the statements around
it know of anything, and every sequence and loop that it stands in passes the completion on.  A call
whose body has not returned hands the record back itself; in programs that are read there is no such
body.

Nodes are taken as they come.  A node without the parts that its label asks for halts the evaluation
as malformed, which is no fault of a program: no tree that comes from a text has such a node.

The fuel bounds the levels and nothing else.  It is not part of the session, and running out of it is
a halt of its own kind that no program can bring about by what it says.
-/

namespace Scriptlet
namespace Evaluation

/-- A way of evaluating nodes. -/
abbrev Evaluator := Node → Evaluation Completion

/-! ## The parts of a node -/

/-- The name in a node that has to be a name. -/
def nameOf (node : Node) : Evaluation String :=
  match node.label with
  | .identifier name => pure name
  | other => malformed (.notAName other)

/-- The first child. -/
def operand (node : Node) : Evaluation Node :=
  match node.first? with
  | some first => pure first
  | none => malformed (.noOperand node.label)

/-- The first two children. -/
def operands (node : Node) : Evaluation (Node × Node) :=
  match node.first?, node.second? with
  | some first, some second => pure (first, second)
  | _, _ => malformed (.notTwoOperands node.label)

/-! ## Values -/

/-- The value of an expression. -/
def valueOf (eval : Evaluator) (node : Node) : Evaluation Value := do
  match ← eval node with
  | .value v => pure v
  | .returned v => pure v
  | .normal => malformed (.notAnExpression node.label)

/-- The values of several expressions, from the first to the last. -/
def valuesOf (eval : Evaluator) : List Node → Evaluation (List Value)
  | [] => pure []
  | node :: nodes => do
    let value ← valueOf eval node
    let values ← valuesOf eval nodes
    pure (value :: values)

/-- The value of an operand of `operator`, which has to be a number. -/
def numberOf (eval : Evaluator) (operator : String) (node : Node) : Evaluation Float := do
  let value ← valueOf eval node
  match value.asNumber? with
  | some x => pure x
  | none => fault node.line (.nonNumericOperand operator value.observed)

/-- Does the comparison hold? -/
def comparisonHolds : Comparator → Float → Float → Bool
  | .equal, x, y => x == y
  | .greater, x, y => y < x
  | .less, x, y => x < y

/-- Does the condition hold?  An expression that is no comparison holds unless it is zero. -/
def holds (eval : Evaluator) (node : Node) : Evaluation Bool :=
  match node.label with
  | .comparison op => do
    let (left, right) ← operands node
    let x ← numberOf eval op.symbol left
    let y ← numberOf eval op.symbol right
    pure (comparisonHolds op x y)
  | _ => do
    let x ← numberOf eval "condition" node
    pure (x != 0)

/-- The result of an arithmetic operator on numbers. -/
def arithmetic : Operator → Float → Float → Float
  | .add, x, y => x + y
  | .subtract, x, y => x - y
  | .multiply, x, y => x * y
  | .divide, x, y => x / y
  | .remainder, x, y => Number.remainder x y
  | .power, x, y => Number.power x y
  | .maximum, x, y => Number.maximum x y

/-- The value of an operator node.  Only `+` takes texts. -/
def operation (eval : Evaluator) (op : Operator) (node : Node) : Evaluation Value := do
  let (left, right) ← operands node
  if op = .add then do
    let a ← valueOf eval left
    let b ← valueOf eval right
    pure (a.add b)
  else do
    let x ← numberOf eval op.symbol.toString left
    let y ← numberOf eval op.symbol.toString right
    pure (.number (arithmetic op x y))

/-- The value of a name: a word for a number is that number, any other a variable. -/
def lookUp (name : String) (line : Nat) : Evaluation Value :=
  match Number.read? name with
  | some x => pure (.number x)
  | none => do
    let s ← get
    match s.memory.find? s.current name with
    | some v => pure v
    | none => fault line (.undefinedVariable name)

/-! ## Calls -/

/-- Gives parameters their arguments, from the first to the last. -/
def assignAll : List Node → List Value → Evaluation Unit
  | parameter :: parameters, argument :: arguments => do
    let name ← nameOf parameter
    assign name argument
    assignAll parameters arguments
  | _, _ => pure ()

/-- Calls a function from a line.  A body that ends without returning yields the none value. -/
def invoke (p : Program) (eval : Evaluator) (name : String) (arguments : List Value)
    (line : Nat) : Evaluation Value :=
  match p.function? name with
  | none => fault line (.undefinedFunction name)
  | some function =>
    match function.children.getLast? with
    | none => pure .none
    | some body => do
      let parameters := function.children.dropLast
      if parameters.length ≠ arguments.length then
        fault line (.parameterCount name parameters.length arguments.length)
      else do
        report (.calling name arguments)
        enter name
        assignAll parameters arguments
        match ← eval body with
        | .returned v => pure v
        | _ => do
          resume
          pure .none

/-! ## Statements -/

/-- Evaluates statements in order, up to the first that returns. -/
def sequence (eval : Evaluator) : List Node → Evaluation Completion
  | [] => pure .normal
  | statement :: statements => do
    match ← eval statement with
    | .returned v => pure (.returned v)
    | _ => sequence eval statements

/-- Repeats the body while the test holds, at most `n` times. -/
def loop (test : Evaluation Bool) (body : Evaluation Completion) : Nat → Evaluation Completion
  | 0 => throw .outOfFuel
  | n + 1 => do
    if ← test then
      match ← body with
      | .returned v => pure (.returned v)
      | _ => loop test body n
    else pure .normal

/-- One level of evaluation, with `eval` for the levels below and `n` rounds for a loop. -/
def step (p : Program) (n : Nat) (eval : Evaluator) (node : Node) : Evaluation Completion :=
  match node.label with
  | .program => pure .normal
  | .function _ => pure .normal
  | .block =>
    match node.children with
    | [] => pure .normal
    | statements :: _ => eval statements
  | .statements => sequence eval node.children
  | .assign => do
    let (target, expression) ← operands node
    let value ← valueOf eval expression
    let name ← nameOf target
    assign name value
    pure .normal
  | .write => do
    let expression ← operand node
    let value ← valueOf eval expression
    writeLine node.line value.observed
    pure .normal
  | .read => do
    let target ← operand node
    let name ← nameOf target
    let text ← nextLine node.line name
    assign name (.ofText text)
    pure .normal
  | .whileLoop => do
    let (test, body) ← operands node
    loop (holds eval test) (eval body) n
  | .ifThen => do
    let (test, consequence) ← operands node
    if ← holds eval test then eval consequence
    else
      match node.children[2]? with
      | some alternative => eval alternative
      | none => pure .normal
  | .returnValue => do
    let expression ← operand node
    let value ← valueOf eval expression
    resume
    report (.returning value)
    pure (.returned value)
  | .call name => do
    let arguments ← valuesOf eval node.children
    let value ← invoke p eval name arguments node.line
    pure (.value value)
  | .operator op => do
    let value ← operation eval op node
    pure (.value value)
  | .comparison _ => do
    let truth ← holds eval node
    pure (.value (.number (if truth then 1 else 0)))
  | .number x => pure (.value (.number x))
  | .text literal => pure (.value (.text literal))
  | .identifier name => do
    let value ← lookUp name node.line
    pure (.value value)

/-- Evaluates a node of a program, at most as many levels deep as there is fuel. -/
def evaluate (p : Program) : Nat → Evaluator
  | 0, _ => throw .outOfFuel
  | n + 1, node => step p n (evaluate p n) node

/-- Calls the entry point of a program and passes on its output. -/
def run (p : Program) (fuel : Nat) : Evaluation Value :=
  match p.function? entryPoint with
  | none => throw (.fault ⟨.missingMain, none⟩)
  | some function => do
    let value ← invoke p (evaluate p fuel) entryPoint [] function.line
    flush function.line
    pure value

end Evaluation

/-! ## Source texts -/

/-- What a run comes to: its outcome, the output written, the input left and the log. -/
structure RunReport where
  outcome : Except Halt Value
  output : Output
  rest : List UInt8
  log : List Event

/-- Runs a program in a session: the outcome and the session after it. -/
def Program.runIn (p : Program) (fuel : Nat) (s : Session) : Except Halt Value × Session :=
  match Evaluation.run p fuel s with
  | .ok value t => (.ok value, t)
  | .error halt t => (.error halt, t)

/-- Reads a source text and runs its program. -/
def runSource (fuel : Nat) (source : String) (discipline : Discipline) (input : List UInt8)
    (output : Output) : RunReport :=
  let (parsed, log) := Program.readSource source
  match parsed with
  | .error e => ⟨.error (.fault e), output, input, log⟩
  | .ok p =>
    let (outcome, s) := p.runIn fuel (.start discipline input output)
    ⟨outcome, s.output, s.input, log ++ s.log.toList⟩

end Scriptlet
