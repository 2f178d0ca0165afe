import Scriptlet.Stream

/-!
Files below a working directory.

A `FileTree` lists files and directories by their path from the working directory.  `FileTree.read`
follows a path to a file: `.` stays, `..` goes up, a name goes down.  What lies outside the working
directory is taken to be empty.  A file has nothing below it, not even itself under a slash.

A path is followed part by part, so a part that is not there makes the rest unreachable, even if it
goes back up.  A path to a directory is found and cannot be read.
-/

namespace Scriptlet

/-- Why a file cannot be read. -/
inductive FileFault where
  | missing
  | notADirectory
  | isADirectory
  | nameTooLong
  | zeroByte
  | notText
  | other (description : String)
  deriving DecidableEq, Repr

/-- The fault with a given number among those of the system. -/
def FileFault.ofNumber? : Nat → Option FileFault
  | 2 => some .missing
  | 20 => some .notADirectory
  | 21 => some .isADirectory
  | 36 => some .nameTooLong
  | _ => none

/-- How a fault is described. -/
def FileFault.message : FileFault → String
  | .missing => "No such file or directory (os error 2)"
  | .notADirectory => "Not a directory (os error 20)"
  | .isADirectory => "Is a directory (os error 21)"
  | .nameTooLong => "File name too long (os error 36)"
  | .zeroByte => "file name contained an unexpected NUL byte"
  | .notText => "stream did not contain valid UTF-8"
  | .other description => description

/-- What a path leads to. -/
inductive FileNode where
  | file (bytes : List UInt8)
  | directory

/-- The parts of a path between its slashes. -/
def pathParts (path : String) : List (List Char) := path.toList.splitOn '/'

/-- Files and directories by their path. -/
structure FileTree where
  nodes : List (List (List Char) × FileNode)

namespace FileTree

/-- The node at a path from the working directory. -/
def node? (t : FileTree) (path : List (List Char)) : Option FileNode :=
  (t.nodes.find? fun entry => entry.1 = path).map Prod.snd

/-- The longest name of a file, in bytes. -/
def longestName : Nat := 255

/-- The longest path, in bytes. -/
def longestPath : Nat := 4095

/-- A directory: inside the working directory, or somewhere outside it. -/
inductive Place where
  | inside (path : List (List Char))
  | outside

/-- The directory above. -/
def Place.parent : Place → Place
  | .inside [] => .outside
  | .inside path => .inside path.dropLast
  | .outside => .outside

/-- What a name leads to from a directory. -/
def Place.child? (t : FileTree) (name : List Char) : Place → Option (List (List Char) × FileNode)
  | .inside path => (t.node? (path ++ [name])).map fun node => (path ++ [name], node)
  | .outside => none

/-- Follows the parts of a path from a directory to the bytes of a file. -/
def walk (t : FileTree) : Place → List (List Char) → Except FileFault (List UInt8)
  | _, [] => .error .isADirectory
  | place, part :: parts =>
    if part = [] ∨ part = ['.'] then walk t place parts
    else if part = ['.', '.'] then walk t place.parent parts
    else if longestName < (String.ofList part).utf8ByteSize then .error .nameTooLong
    else
      match place.child? t part with
      | none => .error .missing
      | some (path, .directory) => walk t (.inside path) parts
      | some (_, .file bytes) => if parts = [] then .ok bytes else .error .notADirectory

/-- The bytes of the file at a path. -/
def read (t : FileTree) (path : String) : Except FileFault (List UInt8) :=
  if path.toList.contains (Char.ofNat 0) then .error .zeroByte
  else if path = "" then .error .missing
  else if longestPath < path.utf8ByteSize then .error .nameTooLong
  else
    let parts := pathParts path
    walk t (if parts.head? = some [] then .outside else .inside []) parts

end FileTree
end Scriptlet
