import Scriptlet.Token.Comment
import Scriptlet.Token.Lexeme

/-!
Reading tokens: one at a time, and all at once.

A `Cursor` stands on its current token and reads the next one when told to, so text beyond it is
not looked at: an error there does not arise before the cursor gets there.  `Cursor.left` bounds
how many more tokens there can be; every step off a token lowers it.

A `TokenStream` is the same text read to its end or to its first error.

The two ways of reading are used for different things.  A program is read with a cursor, so that an
error of the grammar comes before any error of a later token; the list of tokens that the details show
is read all at once.
-/

namespace Scriptlet

/-- A place in a text: the current token, the line reached behind it, and the text left. -/
structure Cursor where
  rest : List Char
  line : Nat
  current : Token
  deriving DecidableEq

namespace Cursor

/-- Steps to the next token.  At the end marker the cursor stays where it is. -/
def advance (c : Cursor) : Except Error Cursor :=
  match scan c.line c.rest with
  | .ok l => .ok ⟨l.rest, l.line, l.token⟩
  | .error e => .error e

/-- A cursor before the first token of a source text. -/
def before (source : String) : Cursor := ⟨eraseComments source.toList, 1, ⟨.finish, 1⟩⟩

/-- A cursor on the first token of a source text. -/
def start (source : String) : Except Error Cursor := (before source).advance

/-- A bound on the tokens to come, the current one included; the end marker does not count. -/
def left (c : Cursor) : Nat := c.rest.length + if c.current.kind = .finish then 0 else 1

/-- A step off a token leaves fewer tokens. -/
theorem left_lt_of_advance {c d : Cursor} (h : c.advance = .ok d)
    (hc : c.current.kind ≠ .finish) : d.left < c.left := by
  unfold advance at h
  split at h
  · next l hl =>
    cases h
    simp only [left, hc, if_false]
    split
    · next hf => simp [rest_eq_nil_of_scan hl hf]
    · next hf => exact Nat.succ_lt_succ (length_rest_lt_of_scan hl hf)
  · cases h

end Cursor

/-! ## The whole stream -/

/-- The tokens of a text in order, and how it ends: with the end marker or with an error. -/
structure TokenStream where
  tokens : List Token
  ending : Except Error Token

namespace TokenStream

/-- Reads a text that starts on line `line` to its end or its first error. -/
def ofText (line : Nat) (text : List Char) : TokenStream :=
  match _h : scan line text with
  | .error e => ⟨[], .error e⟩
  | .ok l =>
    if _hf : l.token.kind = .finish then ⟨[], .ok l.token⟩
    else
      let following := ofText l.line l.rest
      ⟨l.token :: following.tokens, following.ending⟩
termination_by text.length
decreasing_by exact length_rest_lt_of_scan ‹_› ‹_›

/-- The stream of a source text, comments taken out. -/
def ofSource (source : String) : TokenStream := ofText 1 (eraseComments source.toList)

/-- Every token that was read, the end marker included. -/
def delivered (s : TokenStream) : List Token :=
  match s.ending with
  | .ok t => s.tokens ++ [t]
  | .error _ => s.tokens

end TokenStream

/-- All tokens of a source text without the end marker, or its first error. -/
def tokens (source : String) : Except Error (List Token) :=
  let stream := TokenStream.ofSource source
  match stream.ending with
  | .ok _ => .ok stream.tokens
  | .error e => .error e

end Scriptlet
