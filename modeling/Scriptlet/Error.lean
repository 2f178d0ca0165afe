/-!
Faults of a program.

An error is a cause and the line of the source where it was found.  Only the absence of a `main`
function has no line.  Each cause belongs to one stage: reading tokens, reading the grammar, or
running.  The wording of every message is in `Cause.message`.

Causes carry what their messages say: the name of the variable, the operator and the operand as it is
shown, how many arguments there should have been.  So everything a message says can be stated of the
cause, and the text is put together in one place.  A fault of the system, such as an output that is
closed, has its reason as text.
-/

namespace Scriptlet

/-- The stage in which an error arises. -/
inductive Stage where
  | lexical
  | grammatical
  | running
  deriving DecidableEq, Repr

/-- What went wrong. -/
inductive Cause where
  | malformedNumber (numeral : String)
  | unterminatedText
  | unexpectedCharacter (character : Char)
  | unexpectedToken (expected found : String)
  | trailingInput
  | malformedAssignment
  | expectedOperand (found : String)
  | undefinedVariable (name : String)
  | undefinedFunction (name : String)
  | parameterCount (name : String) (expected found : Nat)
  | nonNumericOperand (operator operand : String)
  | inputExhausted (name : String)
  | missingMain
  | streamFailure (description : String)
  deriving DecidableEq, Repr

/-- The stage that a cause belongs to. -/
def Cause.stage : Cause → Stage
  | .malformedNumber _ | .unterminatedText | .unexpectedCharacter _ => .lexical
  | .unexpectedToken _ _ | .trailingInput | .malformedAssignment | .expectedOperand _ =>
    .grammatical
  | .undefinedVariable _ | .undefinedFunction _ | .parameterCount _ _ _ | .nonNumericOperand _ _
  | .inputExhausted _ | .missingMain | .streamFailure _ => .running

/-- The message of a cause, without its line. -/
def Cause.message : Cause → String
  | .malformedNumber numeral => s!"Illegal format for a number '{numeral}'"
  | .unterminatedText => "Unterminated string literal"
  | .unexpectedCharacter character => s!"Unexpected character '{character}'"
  | .unexpectedToken expected found => s!"Expected a {expected}. Got {found}"
  | .trailingInput => "Unexpected text in the program"
  | .malformedAssignment => "Malformed assignment statement"
  | .expectedOperand found =>
    s!"Expected a number, identifier, string literal, or a parenthesis. Got {found}"
  | .undefinedVariable name => s!"Undefined variable '{name}'"
  | .undefinedFunction name => s!"Undefined function '{name}'"
  | .parameterCount name expected found =>
    s!"Mismatched parameters for {name}: expected {expected}, got {found}"
  | .nonNumericOperand operator operand =>
    s!"Operand '{operand}' of '{operator}' is not a number"
  | .inputExhausted name => s!"No input left for read({name})"
  | .missingMain => "Program has no 'main' function"
  | .streamFailure description => description

/-- A cause and the line where it was found. -/
structure Error where
  cause : Cause
  line : Option Nat
  deriving DecidableEq, Repr

namespace Error

/-- An error at a line. -/
def onLine (line : Nat) (cause : Cause) : Error := ⟨cause, some line⟩

/-- The stage in which the error arose. -/
def stage (e : Error) : Stage := e.cause.stage

/-- The full message, with the line in front where there is one. -/
def message (e : Error) : String :=
  match e.line with
  | some line => s!"Line {line}: " ++ e.cause.message
  | none => e.cause.message

end Error
end Scriptlet
