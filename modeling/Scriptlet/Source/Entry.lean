import Scriptlet.Source.File
import Scriptlet.Text.Class

/-!
Entries: what a user gives in place of a program.

An entry that starts with the word `fun` and a space is a program; anything else, blanks around it
ignored, is the path of a program file.  The extension of the path is looked at before the file is.

An entry that is no program is looked up as a file only if its path has the extension of program
files.  The faults that can come up are told apart: another extension, a file that is not there or
cannot be read, and a file that is no text.
-/

namespace Scriptlet

/-- What an entry refers to. -/
inductive Entry where
  | inline (program : String)
  | file (path : String)
  deriving DecidableEq, Repr

/-- Why an entry gives no program. -/
inductive LoadError where
  | wrongExtension (path : String)
  | unreadable (path : String) (fault : FileFault)
  deriving DecidableEq, Repr

/-- The extension of program files. -/
def programExtension : List Char := ['j', 'i', 'f']

namespace LoadError

/-- The message of a load error. -/
def message : LoadError → String
  | .wrongExtension path => "Jiffy files must have extension .jif, got " ++ path
  | .unreadable path fault => "Could not read " ++ path ++ ": " ++ fault.message

/-- The message of the fault behind a load error, if there is one. -/
def reason? : LoadError → Option String
  | .wrongExtension _ => none
  | .unreadable _ fault => some fault.message

end LoadError

/-- The name at the end of a path: the last part that is neither empty nor a dot, unless it goes
up. -/
def fileName? (path : String) : Option (List Char) :=
  match (pathParts path).filter (fun part => part ≠ [] ∧ part ≠ ['.']) |>.getLast? with
  | some name => if name = ['.', '.'] then none else some name
  | none => none

/-- What follows the last dot of a name.  A dot at the start of the name does not count. -/
def nameExtension? (name : List Char) : Option (List Char) :=
  match name.reverse.dropWhile (· ≠ '.') with
  | [] => none
  | [_] => none
  | _ => some (name.reverse.takeWhile (· ≠ '.')).reverse

/-- The extension of a path. -/
def pathExtension? (path : String) : Option (List Char) := (fileName? path).bind nameExtension?

/-- How a program starts that is given in place of a file. -/
def inlineStart : List Char := ['f', 'u', 'n', ' ']

namespace Entry

/-- What the text of an entry refers to. -/
def ofText (text : String) : Entry :=
  if inlineStart.isPrefixOf text.toList then .inline text
  else .file (String.ofList (Text.trim text.toList))

/-- The path of the file to be read, if there is one. -/
def path? : Entry → Option String
  | .inline _ => none
  | .file path => if pathExtension? path = some programExtension then some path else none

/-- Reads a program file; `read` gives the bytes of the file at a path. -/
def loadProgram (read : String → Except FileFault (List UInt8)) (path : String) :
    Except LoadError String :=
  if pathExtension? path ≠ some programExtension then .error (.wrongExtension path)
  else
    match read path with
    | .error fault => .error (.unreadable path fault)
    | .ok bytes =>
      match textOfBytes? bytes with
      | some text => .ok text
      | none => .error (.unreadable path .notText)

/-- The program that an entry gives. -/
def load (read : String → Except FileFault (List UInt8)) : Entry → Except LoadError String
  | .inline program => .ok program
  | .file path => loadProgram read path

end Entry
end Scriptlet
