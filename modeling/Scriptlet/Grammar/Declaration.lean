import Scriptlet.Grammar.Statement
import Scriptlet.Program
import Scriptlet.Value

/-!
Function declarations and whole programs.

A function has a name, parameters and a body.  Every body ends in a `return` of the none literal,
appended here with the line of the token behind the body, so that every call yields a value.  A
program is a list of declarations and nothing else.

Two functions may have the same name.  Both are in the tree, and the table refers to the later one;
nothing is reported about it.  A program without functions is a program too, and reading it says
nothing about the absence of an entry point, which is found out when it is run.

Main statement: reading a program always ends, with a program or an error (`program_ends`), so
`Program.parse` has no third outcome.
-/

namespace Scriptlet
namespace Reading

/-- The statement that ends every body. -/
def finalReturn (line : Nat) : Node :=
  ⟨.returnValue, [.leaf (.text Value.noneLiteral) line], line⟩

/-- The block with one more statement at the end of its list. -/
def appendStatement (statement : Node) : Node → Node
  | ⟨label, list :: others, line⟩ =>
    ⟨label, { list with children := list.children ++ [statement] } :: others, line⟩
  | node => node

/-- One parameter, and more after each comma. -/
def someParameters : Nat → Reading (List Node)
  | 0 => throw .outOfFuel
  | n + 1 => do
    let parameter ← identifierLeaf
    let r ← get
    if r.kind = .symbol ',' then do
      advance
      let more ← someParameters n
      pure (parameter :: more)
    else pure [parameter]

/-- The parameters of a function: none unless the list starts with a name. -/
def parameters (n : Nat) : Reading (List Node) := do
  let r ← get
  match r.kind with
  | .identifier _ => someParameters n
  | _ => pure []

/-- A function, with its name. -/
def declaration (n : Nat) : Reading (String × Node) := do
  let r ← get
  keyword .function
  let name ← identifier
  symbol '('
  let names ← parameters n
  symbol ')'
  let body ← block n
  let s ← get
  modify fun t => { t with log := t.log.add (.declared name names.length) }
  pure (name, ⟨.function name, names ++ [appendStatement (finalReturn s.line) body], r.line⟩)

/-- The declarations up to the first token that starts none. -/
def declarations : Nat → Reading (List (String × Node))
  | 0 => throw .outOfFuel
  | n + 1 => do
    let r ← get
    if r.kind = .keyword .function then do
      let first ← declaration n
      let more ← declarations n
      pure (first :: more)
    else pure []

/-- A whole program. -/
def program : Reading Program := do
  let r ← get
  let functions ← declarations (6 * r.left + 1)
  let s ← get
  if s.kind = .finish then pure (.ofDeclarations r.line functions)
  else fail s.line .trailingInput

/-! ## The fuel is enough -/

theorem ends_someParameters (n : Nat) :
    ∀ r, r.left < n → Ends (someParameters n) r fun _ s => s.left < r.left := by
  induction n with
  | zero => intro r h; omega
  | succ n ih =>
    intro r h
    rw [someParameters]
    refine Ends.bind Ends.identifierLeaf fun parameter s hs => Ends.get_bind ?_
    split
    · next hk =>
      refine Ends.bind (Ends.advance (by simp [hk])) fun _ t ht => ?_
      refine Ends.bind (ih t (by omega)) fun more u hu => ?_
      exact Ends.pure (by omega)
    · exact Ends.pure hs

theorem Ends.parameters {n : Nat} {r : Reader} (h : r.left < n) :
    Ends (parameters n) r fun _ s => s.left ≤ r.left := by
  refine Ends.get_bind ?_
  split
  · exact Ends.mono (ends_someParameters n r h) fun _ s hs => by omega
  · exact Ends.pure (Nat.le_refl _)

theorem Ends.declaration {n : Nat} {r : Reader} (h : 6 * r.left ≤ n) :
    Ends (declaration n) r fun _ s => s.left < r.left := by
  refine Ends.get_bind (Ends.bind Ends.keyword fun _ s hs => ?_)
  refine Ends.bind Ends.identifier fun name t ht => ?_
  refine Ends.bind Ends.symbol fun _ u hu => ?_
  refine Ends.bind (Ends.parameters (by omega)) fun names v hv => ?_
  refine Ends.bind Ends.symbol fun _ w hw => ?_
  refine Ends.bind (Ends.block (by omega)) fun body x hx => Ends.get_bind (Ends.modify_bind ?_)
  exact Ends.pure (by show x.left < r.left; omega)

theorem ends_declarations (n : Nat) :
    ∀ r, 6 * r.left < n → Ends (declarations n) r fun _ s => s.left ≤ r.left := by
  induction n with
  | zero => intro r h; omega
  | succ n ih =>
    intro r h
    rw [declarations]
    refine Ends.get_bind ?_
    split
    · refine Ends.bind (Ends.declaration (by omega)) fun first s hs => ?_
      refine Ends.bind (ih s (by omega)) fun more t ht => ?_
      exact Ends.pure (by omega)
    · exact Ends.pure (Nat.le_refl _)

/-- Reading a program ends in every state. -/
theorem program_ends (r : Reader) : Ends program r fun _ _ => True := by
  refine Ends.get_bind ?_
  refine Ends.bind (ends_declarations _ r (Nat.lt_succ_self _)) fun functions s _ => Ends.get_bind ?_
  split
  · exact Ends.pure trivial
  · exact Ends.fail

/-- Reading a program does not run out of fuel. -/
theorem program_ne_outOfFuel {r s : Reader} : program r ≠ .error .outOfFuel s := by
  intro h
  have := program_ends r
  rw [Ends, h] at this
  exact this

end Reading

namespace Program

/-- Reads a source text: the program or the first error, and the log of the reading. -/
def readSource (source : String) : Except Error Program × List Event :=
  match Cursor.start source with
  | .error e => (.error e, [])
  | .ok c =>
    match h : Reading.program ⟨c, false, Log.empty.add (.token c.current)⟩ with
    | .ok p r => (.ok p, r.log.toList)
    | .error (.failed e) r => (.error e, r.log.toList)
    | .error .outOfFuel _ => absurd h Reading.program_ne_outOfFuel

/-- The program that a source text spells, or the first error in it. -/
def parse (source : String) : Except Error Program := (readSource source).1

end Program
end Scriptlet
