import Scriptlet.Event
import Scriptlet.Token.Cursor
import Scriptlet.Tree

/-!
Reading a program token by token.

A `Reader` is a cursor with a log of the tokens it has come to, and with one flag: `resume` is set
when a block closes, and lets the next statement of the enclosing list follow without a semicolon.
The flag outlives the list, the function and the semicolons it might have been meant for; only the
statement that makes use of it clears it.

The grammar is read by functions that recurse on a number, their fuel.  `Ends` is how their
termination is stated: a reading that ends, whatever it reads, never for want of fuel.
`Reader.left`, the number of tokens to come, is what bounds it.

The log of a reader has an event for each token that it has come to, the first one included.  A token
is reported when it becomes the current one, not when it is taken.

Errors of the grammar name what was expected and what was found.  They are on the line of the current
token, even if the token that is missing should have stood on an earlier line.
-/

namespace Scriptlet

/-- The state of reading. -/
structure Reader where
  cursor : Cursor
  resume : Bool
  log : Log

/-- Why a reading stops. -/
inductive Interruption where
  | failed (e : Error)
  | outOfFuel

/-- A reading keeps its state, and so its log, when it stops. -/
abbrev Reading := EStateM Interruption Reader

namespace Reader

/-- What the current token is. -/
def kind (r : Reader) : Token.Kind := r.cursor.current.kind

/-- The line of the current token. -/
def line (r : Reader) : Nat := r.cursor.current.line

/-- A bound on the tokens to come. -/
def left (r : Reader) : Nat := r.cursor.left

end Reader

namespace Reading

/-- Stops with an error. -/
def fail {α : Type} (line : Nat) (cause : Cause) : Reading α := throw (.failed (.onLine line cause))

/-- Steps to the next token and logs it. -/
def advance : Reading Unit := do
  let r ← get
  match r.cursor.advance with
  | .ok c => set { r with cursor := c, log := r.log.add (.token c.current) }
  | .error e => throw (.failed e)

/-- Stops because another token was expected. -/
def unexpected {α : Type} (expected : String) : Reading α := do
  let r ← get
  fail r.line (.unexpectedToken expected r.kind.describe)

/-- Passes the given token, which is expected under the given name. -/
def expect (kind : Token.Kind) (expected : String) : Reading Unit := do
  let r ← get
  if r.kind = kind then advance else unexpected expected

/-- Passes a symbol. -/
def symbol (c : Char) : Reading Unit := expect (.symbol c) c.toString

/-- Passes a reserved word. -/
def keyword (word : Keyword) : Reading Unit := expect (.keyword word) (Token.Kind.keyword word).describe

/-- Passes a name. -/
def identifier : Reading String := do
  let r ← get
  match r.kind with
  | .identifier name => do
    advance
    pure name
  | _ => unexpected "IDENTIFIER"

/-- Passes a name and makes it a leaf. -/
def identifierLeaf : Reading Node := do
  let r ← get
  let name ← identifier
  pure (.leaf (.identifier name) r.line)

/-! ## Readings that end -/

/-- The reading `x` from state `r` does not run out of fuel, and if it succeeds, its result and the
state after it satisfy `post`. -/
def Ends {α : Type} (x : Reading α) (r : Reader) (post : α → Reader → Prop) : Prop :=
  match x r with
  | .ok a s => post a s
  | .error (.failed _) _ => True
  | .error .outOfFuel _ => False

variable {α β : Type}

theorem Ends.pure {a : α} {r : Reader} {post : α → Reader → Prop} (h : post a r) :
    Ends (Pure.pure a) r post := h

theorem Ends.bind {x : Reading α} {f : α → Reading β} {r : Reader} {p : α → Reader → Prop}
    {q : β → Reader → Prop} (hx : Ends x r p) (hf : ∀ a s, p a s → Ends (f a) s q) :
    Ends (x >>= f) r q := by
  unfold Ends at hx ⊢
  simp only [Bind.bind, EStateM.bind]
  cases hr : x r with
  | ok a s =>
    rw [hr] at hx
    exact hf a s hx
  | error e s =>
    rw [hr] at hx
    cases e with
    | failed e => trivial
    | outOfFuel => exact hx.elim

theorem Ends.mono {x : Reading α} {r : Reader} {p q : α → Reader → Prop} (hx : Ends x r p)
    (h : ∀ a s, p a s → q a s) : Ends x r q := by
  unfold Ends at hx ⊢
  split at hx
  · exact h _ _ hx
  · trivial
  · exact hx.elim

/-- Looking at the state changes nothing. -/
theorem Ends.get_bind {f : Reader → Reading β} {r : Reader} {q : β → Reader → Prop}
    (h : Ends (f r) r q) : Ends (get >>= f) r q := h

/-- A change of the flag or of the log. -/
theorem Ends.modify_bind {g : Reader → Reader} {f : PUnit → Reading β} {r : Reader}
    {q : β → Reader → Prop} (h : Ends (f ⟨⟩) (g r) q) : Ends (modify g >>= f) r q := h

/-- An error of the grammar is an end. -/
theorem Ends.fail {line : Nat} {cause : Cause} {r : Reader} {post : α → Reader → Prop} :
    Ends (fail line cause) r post := trivial

theorem Ends.unexpected {expected : String} {r : Reader} {post : α → Reader → Prop} :
    Ends (unexpected expected) r post := trivial

/-- A step off a token leaves fewer tokens. -/
theorem Ends.advance {r : Reader} (h : r.kind ≠ .finish) :
    Ends advance r fun _ s => s.left < r.left := by
  refine Ends.get_bind ?_
  split
  · next c hc => exact Cursor.left_lt_of_advance hc h
  · trivial

/-- A token that is expected and is not the end marker leaves less to come. -/
theorem Ends.expect {kind : Token.Kind} {expected : String} {r : Reader} (h : kind ≠ .finish) :
    Ends (expect kind expected) r fun _ s => s.left < r.left := by
  refine Ends.get_bind ?_
  split
  · next hk => exact Ends.advance (hk ▸ h)
  · exact Ends.unexpected

theorem Ends.symbol {c : Char} {r : Reader} : Ends (symbol c) r fun _ s => s.left < r.left :=
  Ends.expect (by simp)

theorem Ends.keyword {word : Keyword} {r : Reader} :
    Ends (keyword word) r fun _ s => s.left < r.left :=
  Ends.expect (by simp)

theorem Ends.identifier {r : Reader} : Ends identifier r fun _ s => s.left < r.left := by
  refine Ends.get_bind ?_
  split
  · next name hk =>
    refine Ends.bind (Ends.advance (by simp [hk])) fun _ s hs => ?_
    exact Ends.pure hs
  · exact Ends.unexpected

theorem Ends.identifierLeaf {r : Reader} : Ends identifierLeaf r fun _ s => s.left < r.left := by
  refine Ends.get_bind (Ends.bind Ends.identifier fun _ s hs => ?_)
  exact Ends.pure hs

end Reading
end Scriptlet
