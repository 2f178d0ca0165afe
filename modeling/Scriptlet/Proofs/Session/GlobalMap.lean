import Scriptlet.Session.Evaluate

/-!
Evaluation with one map for all variables.

This is what the shared discipline is meant to come to, said without records: the variables of all
functions are in one map.  Entering a function assigns its parameters in the map, from the first to
the last; leaving it restores nothing.  There is no current record, nothing is handed out, and
nothing is reported.

The map is kept as the list of the assignments so far, the latest first: the value of a variable is
that of its latest assignment.  So nothing that was ever assigned is lost from sight.

Expressions have values, statements say whether they return.  As in the evaluation of sessions, one
unit of fuel is one level, so the two can be compared with any fuel.

This is a specification, and it is written to be read.  It follows the forms of nodes as a definition
of the language would, with one equation for each form, and it shares nothing with the evaluator of
sessions but the values and the operators on them.  The comparison of the two is done elsewhere.

What a function has assigned is visible in its caller, and what an earlier call has assigned is
visible in a later one.  With this evaluator that is plain to see, since there is only one map and
nobody takes anything out of it.
-/

namespace Scriptlet

/-- What a running program with one map has: its assignments so far, the latest first, what is left
of the input, and the output. -/
structure Globals where
  assigned : List (String × Value)
  input : List UInt8
  output : Output

/-- The value of a variable. -/
def Globals.find? (g : Globals) (name : String) : Option Value := Table.findIn name g.assigned

/-- An evaluation with one map keeps it when it halts. -/
abbrev GlobalEvaluation := EStateM Halt Globals

namespace GlobalEvaluation

open Evaluation (arithmetic comparisonHolds brokenPipe invalidText)

variable {α : Type}

/-! ## Variables and streams -/

/-- Halts with a fault on a line. -/
def fault (line : Nat) (cause : Cause) : GlobalEvaluation α := throw (.fault (.onLine line cause))

/-- Halts on a node that no program has. -/
def malformed (node : Node) : GlobalEvaluation α := throw (.malformed (.notAnExpression node.label))

/-- Gives a variable a value. -/
def assign (name : String) (v : Value) : GlobalEvaluation Unit :=
  modify fun g => { g with assigned := (name, v) :: g.assigned }

/-- The value of a name: a word for a number is that number, any other a variable. -/
def lookUp (name : String) (line : Nat) : GlobalEvaluation Value := do
  match Number.read? name with
  | some x => pure (.number x)
  | none =>
    let g ← get
    match g.find? name with
    | some v => pure v
    | none => fault line (.undefinedVariable name)

/-- Writes a line. -/
def writeLine (line : Nat) (text : String) : GlobalEvaluation Unit := do
  let accepted ← modifyGet fun g =>
    let (accepted, output) := g.output.write (text.push '\n').toUTF8
    (accepted, { g with output })
  if accepted then pure () else fault line brokenPipe

/-- Passes on what has been written. -/
def flush (line : Nat) : GlobalEvaluation Unit := do
  let g ← get
  if g.output.flushFails then fault line brokenPipe

/-- Takes the next line of the input for the variable `name`. -/
def nextLine (line : Nat) (name : String) : GlobalEvaluation String := do
  let g ← get
  let (bytes, rest) := splitLine g.input
  if bytes = [] then fault line (.inputExhausted name)
  else do
    set { g with input := rest }
    match textOfBytes? bytes with
    | some text => pure (lineContent text)
    | none => fault line invalidText

/-! ## The parts of expressions and statements -/

/-- A number that `operator` takes; `value` is the value of an expression. -/
def numberOf (value : Node → GlobalEvaluation Value) (operator : String) (node : Node) :
    GlobalEvaluation Float := do
  let v ← value node
  match v.asNumber? with
  | some x => pure x
  | none => fault node.line (.nonNumericOperand operator v.observed)

/-- The value of an operator on two expressions.  Only `+` takes texts. -/
def operation (value : Node → GlobalEvaluation Value) (op : Operator) (left right : Node) :
    GlobalEvaluation Value :=
  if op = .add then do
    let a ← value left
    let b ← value right
    pure (a.add b)
  else do
    let x ← numberOf value op.symbol.toString left
    let y ← numberOf value op.symbol.toString right
    pure (.number (arithmetic op x y))

/-- Does a condition hold? -/
def holds (value : Node → GlobalEvaluation Value) : Node → GlobalEvaluation Bool
  | ⟨.comparison op, [left, right], _⟩ => do
    let x ← numberOf value op.symbol left
    let y ← numberOf value op.symbol right
    pure (comparisonHolds op x y)
  | node => do
    let x ← numberOf value "condition" node
    pure (x != 0)

/-- Assigns parameters their arguments, from the first to the last. -/
def assignAll : List Node → List Value → GlobalEvaluation Unit
  | ⟨.identifier name, _, _⟩ :: parameters, argument :: arguments => do
    assign name argument
    assignAll parameters arguments
  | node :: _, _ :: _ => malformed node
  | _, _ => pure ()

/-- Calls a function from a line; `execute` executes its body. -/
def invoke (p : Program) (execute : Node → GlobalEvaluation (Option Value)) (name : String)
    (arguments : List Value) (line : Nat) : GlobalEvaluation Value :=
  match p.function? name with
  | none => fault line (.undefinedFunction name)
  | some function =>
    match function.children.getLast? with
    | none => pure .none
    | some body => do
      let parameters := function.children.dropLast
      if parameters.length ≠ arguments.length then
        fault line (.parameterCount name parameters.length arguments.length)
      else do
        assignAll parameters arguments
        let returned ← execute body
        pure (returned.getD .none)

/-- Executes statements in order, up to the first that returns. -/
def inOrder (execute : Node → GlobalEvaluation (Option Value)) :
    List Node → GlobalEvaluation (Option Value)
  | [] => pure none
  | statement :: statements => do
    match ← execute statement with
    | some v => pure (some v)
    | none => inOrder execute statements

/-- Repeats the body while the test holds, at most `n` times. -/
def repeatWhile (test : GlobalEvaluation Bool) (body : GlobalEvaluation (Option Value)) :
    Nat → GlobalEvaluation (Option Value)
  | 0 => throw .outOfFuel
  | n + 1 => do
    if ← test then
      match ← body with
      | some v => pure (some v)
      | none => repeatWhile test body n
    else pure none

/-! ## Expressions and statements -/

mutual

/-- The value of an expression. -/
def value (p : Program) : Nat → Node → GlobalEvaluation Value
  | 0, _ => throw .outOfFuel
  | n + 1, node =>
    match node.label, node.children with
    | .number x, _ => pure (.number x)
    | .text literal, _ => pure (.text literal)
    | .identifier name, _ => lookUp name node.line
    | .operator op, [left, right] => operation (value p n) op left right
    | .call name, expressions => do
      let arguments ← expressions.mapM (value p n)
      invoke p (execute p n) name arguments node.line
    | _, _ => malformed node

/-- Executes a statement: the value that it returns, if it returns. -/
def execute (p : Program) : Nat → Node → GlobalEvaluation (Option Value)
  | 0, _ => throw .outOfFuel
  | n + 1, node =>
    match node.label, node.children with
    | .block, [statements] => execute p n statements
    | .statements, statements => inOrder (execute p n) statements
    | .assign, [⟨.identifier name, _, _⟩, expression] => do
      let v ← value p n expression
      assign name v
      pure none
    | .write, [expression] => do
      let v ← value p n expression
      writeLine node.line v.observed
      pure none
    | .read, [⟨.identifier name, _, _⟩] => do
      let text ← nextLine node.line name
      assign name (.ofText text)
      pure none
    | .whileLoop, [test, body] => repeatWhile (holds (value p n) test) (execute p n body) n
    | .ifThen, [test, consequence] => do
      if ← holds (value p n) test then execute p n consequence
      else pure none
    | .ifThen, [test, consequence, alternative] => do
      if ← holds (value p n) test then execute p n consequence
      else execute p n alternative
    | .returnValue, [expression] => do
      let v ← value p n expression
      pure (some v)
    | _, _ => malformed node

end

/-- Calls the entry point of a program and passes on its output. -/
def run (p : Program) (fuel : Nat) : GlobalEvaluation Value :=
  match p.function? entryPoint with
  | none => throw (.fault ⟨.missingMain, none⟩)
  | some function => do
    let v ← invoke p (execute p fuel) entryPoint [] function.line
    flush function.line
    pure v

end GlobalEvaluation

/-- Runs a program with one map: the outcome, and what there is after it. -/
def Program.runGlobally (p : Program) (fuel : Nat) (g : Globals) : Except Halt Value × Globals :=
  match GlobalEvaluation.run p fuel g with
  | .ok v g' => (.ok v, g')
  | .error halt g' => (.error halt, g')

/-- The map of a session whose records are all out of sight but `record`. -/
def Session.globals (record : Handle) (s : Session) : Globals :=
  ⟨(s.memory.records[record]?.map Table.entries).getD [], s.input, s.output⟩

end Scriptlet
