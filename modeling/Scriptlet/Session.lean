import Scriptlet.Error
import Scriptlet.Memory
import Scriptlet.Stream
import Scriptlet.Tree

/-!
Sessions: the state in which a program runs.

A session has the memory, the current record, what is left of the input, the output and the log.
It can be used again after a run, also after one that failed: nothing is reset, and every step
leaves the session as it was when it stopped.

An `Evaluation` is a step of a run.  It can halt with a fault of the program, or on a node that no
program has, or because its fuel is used up.

Requests for lines and for output are steps of their own.  A line is taken from the input before it is
known to be a text; a text that is written may be accepted in part.  Both change the session also
where they halt.  A fault carries the line of the node that asked, and the end of the input names the
variable that was to be read.
-/

namespace Scriptlet

/-- The state of a running program. -/
structure Session where
  memory : Memory
  current : Handle
  input : List UInt8
  output : Output
  log : Log

/-- A session with nothing done yet.  Its first record belongs to no discipline. -/
def Session.start (discipline : Discipline) (input : List UInt8) (output : Output) : Session :=
  let (record, memory) := (Memory.new discipline).fresh
  ⟨memory, record, input, output, .empty⟩

/-- How the evaluation of a node ends.  A returned value leaves every enclosing statement. -/
inductive Completion where
  | normal
  | value (v : Value)
  | returned (v : Value)
  deriving DecidableEq

/-- A node that no program has. -/
inductive Malformation where
  | notAName (label : Label)
  | noOperand (label : Label)
  | notTwoOperands (label : Label)
  | notAnExpression (label : Label)
  deriving DecidableEq

/-- What is wrong with a malformed node. -/
def Malformation.message : Malformation → String
  | .notAName label => "parser only places identifiers here, found " ++ label.display
  | .noOperand label => label.display ++ " always has an operand"
  | .notTwoOperands label => label.display ++ " always has two children"
  | .notAnExpression label => label.display ++ " is not an expression"

/-- Why an evaluation halts. -/
inductive Halt where
  | fault (e : Error)
  | malformed (m : Malformation)
  | outOfFuel
  deriving DecidableEq

/-- An evaluation keeps the session when it halts. -/
abbrev Evaluation := EStateM Halt Session

namespace Evaluation

variable {α : Type}

/-- Halts with a fault on a line. -/
def fault (line : Nat) (cause : Cause) : Evaluation α := throw (.fault (.onLine line cause))

/-- Halts on a malformed node. -/
def malformed (m : Malformation) : Evaluation α := throw (.malformed m)

/-- Adds to the log. -/
def report (e : Event) : Evaluation Unit := modify fun s => { s with log := s.log.add e }

/-- Makes a record that has been handed out the current one. -/
def take (handout : Memory → Handout) : Evaluation Unit :=
  modify fun ⟨memory, _, input, output, log⟩ =>
    let h := handout memory
    ⟨h.memory, h.record, input, output, log.addAll h.events⟩

/-- Makes the record of a function that is entered the current one. -/
def enter (function : String) : Evaluation Unit := take fun m => m.enter function

/-- Makes the record of the caller the current one. -/
def resume : Evaluation Unit := take Memory.restore

/-- Gives a variable of the current record a value. -/
def assign (name : String) (value : Value) : Evaluation Unit :=
  modify fun s => { s with memory := s.memory.insert s.current name value }

/-- What a refused write is reported as. -/
def brokenPipe : Cause := .streamFailure "broken pipe"

/-- What input that is no text is reported as. -/
def invalidText : Cause := .streamFailure "stream did not contain valid UTF-8"

/-- Writes a line. -/
def writeLine (line : Nat) (text : String) : Evaluation Unit := do
  let accepted ← modifyGet fun ⟨memory, current, input, output, log⟩ =>
    let (accepted, output) := output.write (text.push '\n').toUTF8
    (accepted, ⟨memory, current, input, output, log⟩)
  if accepted then pure () else fault line brokenPipe

/-- Passes on what has been written. -/
def flush (line : Nat) : Evaluation Unit := do
  let s ← get
  if s.output.flushFails then fault line brokenPipe

/-- Takes the next line of the input for the variable `name`. -/
def nextLine (line : Nat) (name : String) : Evaluation String := do
  let s ← get
  let (bytes, rest) := splitLine s.input
  if bytes = [] then fault line (.inputExhausted name)
  else do
    set { s with input := rest }
    match textOfBytes? bytes with
    | some text => pure (lineContent text)
    | none => fault line invalidText

end Evaluation
end Scriptlet
