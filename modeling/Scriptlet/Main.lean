import Scriptlet.Console

/-!
The command line.

A run is a function of its input, so it is run on the lines that there are, and run again with more
lines whenever it asks for input and there is some.  Each time, only what is new is printed.

Nothing is proved of this module: it does the reading and printing, and leaves the rest to
`Console.run`.
-/

namespace Scriptlet
namespace Console

/-- No run is this deep. -/
def ampleFuel : Nat := 1 <<< 60

/-- How many bytes of input are asked for at a time. -/
def chunkSize : USize := 65536

/-- The number that the system gives a fault, and how it describes it. -/
def numberOf : IO.Error → Option (UInt32 × String)
  | .alreadyExists _ n d | .otherError n d | .resourceBusy n d | .resourceVanished n d
  | .unsupportedOperation n d | .hardwareFault n d | .unsatisfiedConstraints n d
  | .illegalOperation n d | .protocolError n d | .timeExpired n d | .interrupted _ n d
  | .noFileOrDirectory _ n d | .invalidArgument _ n d | .permissionDenied _ n d
  | .resourceExhausted _ n d | .inappropriateType _ n d | .noSuchThing _ n d => some (n, d)
  | .unexpectedEof | .userError _ => none

/-- The fault behind a failure to read a file. -/
def fileFault (e : IO.Error) : FileFault :=
  match numberOf e with
  | some (number, description) =>
    -- some failures come with their number negated
    let number := if number < 0x80000000 then number.toNat else (0 - number).toNat
    (FileFault.ofNumber? number).getD
      (.other (description.capitalize ++ " (os error " ++ toString number ++ ")"))
  | none => .other (toString e)

/-- The bytes of a file. -/
def readFile (path : String) : IO (Except FileFault (List UInt8)) := do
  if path.toList.contains (Char.ofNat 0) then pure (.error .zeroByte)
  else
    try
      let bytes ← IO.FS.readBinFile path
      pure (.ok bytes.toList)
    catch e => pure (.error (fileFault e))

/-- Adds the next bytes of the standard input, up to the end of a line or of the input; are there
more? -/
partial def readOn (before : ByteArray) : IO (ByteArray × Bool) := do
  let chunk ← (← IO.getStdin).read chunkSize
  if chunk.isEmpty then pure (before, false)
  else if chunk.toList.getLast? = some lineBreak then pure (before ++ chunk, true)
  else readOn (before ++ chunk)

/-- Runs a command on the input so far, of whose output `shown` bytes have been printed, and on more
input as long as it asks for it and `more` may come. -/
partial def serve (arguments : List String) (input : ByteArray) (shown : Nat) (more : Bool) :
    IO UInt32 := do
  let bytes := input.toList
  let content ← match path? arguments bytes with
    | some path => readFile path
    | none => pure (.error .missing)
  let result := run ampleFuel (fun _ => content) arguments bytes
  let stdout ← IO.getStdout
  stdout.write (result.stdout.extract shown result.stdout.size)
  stdout.flush
  if result.starved && more then do
    let (input, more) ← readOn input
    serve arguments input result.stdout.size more
  else do
    (← IO.getStderr).putStr result.stderr
    pure result.exitCode.toUInt32

end Console
end Scriptlet

/-- Runs the command. -/
def main (arguments : List String) : IO UInt32 := Scriptlet.Console.serve arguments .empty 0 true
