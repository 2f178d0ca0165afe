import Scriptlet.Console.Arguments
import Scriptlet.Session.Evaluate
import Scriptlet.Source.Entry
import Scriptlet.Tree.Drawing

/-!
The command: from arguments and standard input to what is printed and the exit code.

The entry comes from the arguments or, after a prompt, from the first line of standard input; the
program reads what is left.  With details, the tokens and the drawing of the tree are printed before
the program's own output, and nothing else changes.

A command is a function of the whole of its input, but says whether it has used all of that and
asked for more (`Result.starved`).  So it can be run on what there is, and again on more.

The exit code is zero for a program that has run to its end and for a call for help, one for every
failure, and two for arguments that make no sense.  A failure is one line for people to read, on the
error output, with the reason below it where there is one.  What a program has printed before it
failed stays printed.
-/

namespace Scriptlet
namespace Console

/-- What a command prints, and its exit code. -/
structure Result where
  exitCode : Nat
  stdout : ByteArray
  stderr : String
  log : List Event
  /-- Has it asked for input where none was left? -/
  starved : Bool

/-- The prompt for an entry. -/
def prompt : String := "Enter program, or program filename, to INTERPRET: \n"

/-- The line before the program's own output. -/
def banner : String := "------------INTERPRETER OUTPUT------------------\n"

/-- What a call for help prints. -/
def helpText : String :=
  "Run a Jiffy program

Usage: jiffy [OPTIONS] [SOURCE]

Arguments:
  [SOURCE]  A .jif file, or program text starting with `fun`. Prompted for when absent

Options:
  -d, --detail           Print the token trace and the parse tree before running
  -m, --memory <MEMORY>  Activation-record provider [default: shared] [possible values: shared, stack]
  -h, --help             Print help
"

/-- What a misuse prints. -/
def usageText : String :=
  "Usage: jiffy [OPTIONS] [SOURCE]\n\nFor more information, try '--help'.\n"

/-- The exit code of a command that fails. -/
def failureCode : Nat := 1

/-- The exit code of a command that is misused. -/
def misuseCode : Nat := 2

/-- The text of a failure, with its reason where it has one. -/
def failureText (message : String) : Option String → String
  | none => "Error: " ++ message ++ "\n"
  | some reason => "Error: " ++ message ++ "\n\nCaused by:\n    " ++ reason ++ "\n"

/-- A command that fails after having printed `printed`. -/
def failure (printed : String) (message : String) (reason? : Option String) (log : List Event) :
    Result :=
  ⟨failureCode, printed.toUTF8, failureText message reason?, log, false⟩

/-- The text of a halt. -/
def haltText : Halt → String
  | .fault e => e.message
  | .malformed m => m.message
  | .outOfFuel => "the fuel of the evaluation is used up"

/-- Does the halt come from a lack of input? -/
def asksForInput : Halt → Bool
  | .fault ⟨.inputExhausted _, _⟩ => true
  | _ => false

/-- The lines that show tokens, the first of which has number `number`. -/
def tokenLines (number : Nat) : List Token → String
  | [] => ""
  | t :: ts =>
    "token " ++ toString number ++ " is " ++ t.kind.display ++ "\n" ++ tokenLines (number + 1) ts

/-- The details of a program. -/
def details (source : String) (p : Program) : Except Error String := do
  let ts ← tokens source
  pure (tokenLines 1 ts ++ p.root.drawing ++ "\n" ++ banner)

/-- Runs the program of an entry; `printed` has been printed before. -/
def runEntry (fuel : Nat) (read : String → Except FileFault (List UInt8)) (options : Options)
    (printed : String) (entry : String) (input : List UInt8) : Result :=
  match (Entry.ofText entry).load read with
  | .error e => failure printed e.message e.reason? []
  | .ok source =>
    let (parsed, log) := Program.readSource source
    match parsed with
    | .error e => failure printed e.message none log
    | .ok p =>
      let shown := if options.detail then details source p else .ok ""
      let log :=
        if options.detail then log ++ (TokenStream.ofSource source).delivered.map .token else log
      match shown with
      | .error e => failure printed e.message none log
      | .ok shown =>
        let discipline := options.discipline.getD .shared
        let (outcome, s) := p.runIn fuel (.start discipline input .unlimited)
        let stdout := (printed ++ shown).toUTF8 ++ s.output.written
        let log := log ++ s.log.toList
        match outcome with
        | .ok _ => ⟨0, stdout, "", log, false⟩
        | .error halt =>
          ⟨failureCode, stdout, failureText (haltText halt) none, log, asksForInput halt⟩

/-- The text without the line breaks and carriage returns at its end. -/
def dropLineEnds (s : List Char) : List Char :=
  (s.reverse.dropWhile fun c => c = '\n' ∨ c = '\r').reverse

/-- The entry in a line of the input, if the line is a text. -/
def entryOfLine? (line : List UInt8) : Option String :=
  (textOfBytes? line).map fun text => String.ofList (dropLineEnds text.toList)

/-- Takes the entry from the first line of the input, after the prompt. -/
def runPrompted (fuel : Nat) (read : String → Except FileFault (List UInt8)) (options : Options)
    (input : List UInt8) : Result :=
  let (line, rest) := splitLine input
  let result :=
    match entryOfLine? line with
    | some entry => runEntry fuel read options prompt entry rest
    | none => failure prompt FileFault.notText.message none []
  { result with starved := result.starved || input.isEmpty }

/-- Runs a command. -/
def run (fuel : Nat) (read : String → Except FileFault (List UInt8)) (arguments : List String)
    (input : List UInt8) : Result :=
  match Invocation.ofArguments arguments with
  | .misuse => ⟨misuseCode, .empty, usageText, [], false⟩
  | .help => ⟨0, helpText.toUTF8, "", [], false⟩
  | .execute options =>
    match options.entry with
    | some entry => runEntry fuel read options "" entry input
    | none => runPrompted fuel read options input

/-- The path of the file that a command reads, if it reads one. -/
def path? (arguments : List String) (input : List UInt8) : Option String :=
  match Invocation.ofArguments arguments with
  | .execute options =>
    (options.entry.or (entryOfLine? (splitLine input).1)).bind fun entry => (Entry.ofText entry).path?
  | _ => none

end Console
end Scriptlet
