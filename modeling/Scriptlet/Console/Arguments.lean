import Scriptlet.Memory

/-!
Arguments of the command line.

There is one operand, the entry, and there are three options: `-d` or `--detail`, `-m` or
`--memory` with a value, and `-h` or `--help`.  Short options may be written together, the value of
the last one behind them.  `--` ends the options.  An option may be given once.
-/

namespace Scriptlet

/-- What the command is to do. -/
structure Options where
  entry : Option String
  detail : Bool
  discipline : Option Discipline
  deriving DecidableEq, Repr

/-- What the arguments come to. -/
inductive Invocation where
  | execute (options : Options)
  | help
  | misuse
  deriving DecidableEq, Repr

namespace Options

/-- No arguments at all. -/
def none : Options := ⟨Option.none, false, Option.none⟩

/-- The discipline that a value of `--memory` names. -/
def discipline? (value : List Char) : Option Discipline :=
  if value = "shared".toList then some .shared
  else if value = "stack".toList then some .stack
  else Option.none

/-- Sets the entry, once. -/
def setEntry (o : Options) (entry : String) : Option Options :=
  if o.entry.isSome then Option.none else some { o with entry := some entry }

/-- Asks for details, once. -/
def setDetail (o : Options) : Option Options :=
  if o.detail then Option.none else some { o with detail := true }

/-- Sets the discipline, once. -/
def setDiscipline (o : Options) (value : List Char) : Option Options :=
  if o.discipline.isSome then Option.none
  else (discipline? value).map fun d => { o with discipline := some d }

/-- Only operands are left. -/
def operands (o : Options) : List String → Invocation
  | [] => .execute o
  | argument :: rest =>
    match o.setEntry argument with
    | some o => operands o rest
    | Option.none => .misuse

/-- What short options written together come to. -/
inductive Cluster where
  | done (o : Options)
  | awaitsDiscipline (o : Options)
  | help
  | misuse

/-- Short options written together.  The value of `-m` may follow at once, or after `=`. -/
def cluster (o : Options) : List Char → Cluster
  | [] => .done o
  | 'd' :: rest =>
    match o.setDetail with
    | some o => cluster o rest
    | Option.none => .misuse
  | 'h' :: _ => .help
  | ['m'] => .awaitsDiscipline o
  | 'm' :: value =>
    let value := if value.head? = some '=' then value.tail else value
    match o.setDiscipline value with
    | some o => .done o
    | Option.none => .misuse
  | _ => .misuse

/-- A long option without its dashes, its value behind `=` if there is one. -/
def long (o : Options) (option : List Char) : Cluster :=
  let name := option.takeWhile (· ≠ '=')
  match option.dropWhile (· ≠ '=') with
  | [] =>
    if name = "detail".toList then
      match o.setDetail with
      | some o => .done o
      | Option.none => .misuse
    else if name = "memory".toList then .awaitsDiscipline o
    else if name = "help".toList then .help
    else .misuse
  | _ :: value =>
    if name = "memory".toList then
      match o.setDiscipline value with
      | some o => .done o
      | Option.none => .misuse
    else .misuse

/-- Reads arguments one after the other; the first misuse or call for help decides. -/
def read (o : Options) : List String → Invocation
  | [] => .execute o
  | argument :: rest =>
    if argument = "--" then operands o rest
    else
      let read? : Option Cluster :=
        match argument.toList with
        | '-' :: '-' :: option => some (long o option)
        | '-' :: c :: cs => some (cluster o (c :: cs))
        | _ => Option.none
      match read? with
      | Option.none =>
        match o.setEntry argument with
        | some o => read o rest
        | Option.none => .misuse
      | some (.done o) => read o rest
      | some .help => .help
      | some .misuse => .misuse
      | some (.awaitsDiscipline o) =>
        match rest with
        | [] => .misuse
        | value :: rest =>
          match o.setDiscipline value.toList with
          | some o => read o rest
          | Option.none => .misuse

end Options

/-- What the arguments of a command come to. -/
def Invocation.ofArguments (arguments : List String) : Invocation := Options.none.read arguments

example : Invocation.ofArguments ["-dmstack", "a"] =
    .execute ⟨some "a", true, some .stack⟩ := by decide +kernel
example : Invocation.ofArguments ["-m", "stack", "-m=stack"] = .misuse := by decide +kernel

end Scriptlet
