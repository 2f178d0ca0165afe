import Scriptlet.Text.Letter
import Scriptlet.Error
import Scriptlet.Token
import Scriptlet.Value

/-!
The first token of a text.

`scan` skips spaces, tabs, carriage returns, form feeds and line breaks, and reads one token by its
first character: a digit starts a numeral, a letter a word, a quote a text literal; another blank
is an error, and any other character is a symbol of its own.  Numerals and words run up to the next
delimiter, whatever is in between, and a text literal up to the next quote.

Every token but the end marker takes at least one character, so what is left is shorter
(`length_rest_lt_of_scan`).

Words are names unless they are reserved, and a reserved word in other letters is a name.  A numeral
that denotes no number is an error with all its characters up to the delimiter, so that `1x` is not
read as two tokens.  A text literal may go on over several lines; it has the line of its first quote.
-/

namespace Scriptlet

/-- The characters that end a word or a numeral. -/
def delimiters : List Char :=
  [' ', '\t', '\n', '\r', '\x7b', '\x7d', ';', '+', '-', '*', '/', '(', ')', '=', '"', '<', '>',
   ',', '?', '^', '$', '%']

/-- Does `c` continue a word or a numeral? -/
def inWord (c : Char) : Bool := !delimiters.contains c

/-- The characters between tokens, line breaks apart. -/
def separators : List Char := [' ', '\t', '\r', '\x0c']

/-- A token, the line reached after it, and the text that follows. -/
structure Lexed where
  token : Token
  line : Nat
  rest : List Char

/-- A word is a reserved word or a name. -/
def wordKind (word : String) : Token.Kind :=
  match Keyword.ofSpelling? word with
  | some k => .keyword k
  | none => .identifier word

/-- Reads the numeral that starts with the digit `c`. -/
def numeral (line : Nat) (c : Char) (cs : List Char) : Except Error Lexed :=
  let digits := c :: cs.takeWhile inWord
  match Decimal.read? digits with
  | some x => .ok ⟨⟨.number (x.toFloat false), line⟩, line, cs.dropWhile inWord⟩
  | none => .error (.onLine line (.malformedNumber (String.ofList digits)))

/-- Reads the word that starts with the letter `c`. -/
def word (line : Nat) (c : Char) (cs : List Char) : Lexed :=
  ⟨⟨wordKind (String.ofList (c :: cs.takeWhile inWord)), line⟩, line, cs.dropWhile inWord⟩

/-- Reads a text literal, its opening quote already passed.  It may run over several lines. -/
def literal (line : Nat) (cs : List Char) : Except Error Lexed :=
  let body := cs.takeWhile (· ≠ quoteMark)
  match cs.dropWhile (· ≠ quoteMark) with
  | [] => .error (.onLine line .unterminatedText)
  | _ :: rest =>
    .ok ⟨⟨.text (String.ofList (quoteMark :: (body ++ [quoteMark]))), line⟩,
      line + body.count '\n', rest⟩

/-- Reads the token that starts with `c`. -/
def lexeme (line : Nat) (c : Char) (cs : List Char) : Except Error Lexed :=
  if c.isDigit then numeral line c cs
  else if Text.isLetter c then .ok (word line c cs)
  else if c = quoteMark then literal line cs
  else if Text.isBlank c then .error (.onLine line (.unexpectedCharacter c))
  else .ok ⟨⟨.symbol c, line⟩, line, cs⟩

/-- Reads the first token of a text that starts on line `line`. -/
def scan (line : Nat) : List Char → Except Error Lexed
  | [] => .ok ⟨⟨.finish, line⟩, line, []⟩
  | c :: cs =>
    if c = '\n' then scan (line + 1) cs
    else if separators.contains c then scan line cs
    else lexeme line c cs

/-! ## A token takes at least one character -/

theorem length_dropWhile_le (p : Char → Bool) (s : List Char) :
    (s.dropWhile p).length ≤ s.length := by
  have h := congrArg List.length (List.takeWhile_append_dropWhile (p := p) (l := s))
  simp only [List.length_append] at h
  omega

theorem length_rest_le_of_lexeme {line : Nat} {c : Char} {cs : List Char} {l : Lexed}
    (h : lexeme line c cs = .ok l) : l.rest.length ≤ cs.length := by
  unfold lexeme at h
  split at h
  · -- a numeral
    simp only [numeral] at h
    split at h
    · cases h
      exact length_dropWhile_le _ _
    · cases h
  split at h
  · -- a word
    cases h
    exact length_dropWhile_le _ _
  split at h
  · -- a text literal
    simp only [literal] at h
    have hle := length_dropWhile_le (fun d => decide (d ≠ quoteMark)) cs
    split at h
    · cases h
    · next rest hr =>
      cases h
      rw [hr, List.length_cons] at hle
      show rest.length ≤ cs.length
      omega
  split at h
  · cases h
  · -- a symbol
    cases h
    exact Nat.le_refl _

/-- What follows a token other than the end marker is shorter than the text. -/
theorem length_rest_lt_of_scan {line : Nat} {s : List Char} {l : Lexed}
    (h : scan line s = .ok l) (hf : l.token.kind ≠ .finish) : l.rest.length < s.length := by
  induction s generalizing line with
  | nil => cases h; exact absurd rfl hf
  | cons c cs ih =>
    unfold scan at h
    split at h
    · exact Nat.lt_succ_of_lt (ih h)
    split at h
    · exact Nat.lt_succ_of_lt (ih h)
    · exact Nat.lt_succ_of_le (length_rest_le_of_lexeme h)

/-- No lexeme is the end marker. -/
theorem kind_ne_finish_of_lexeme {line : Nat} {c : Char} {cs : List Char} {l : Lexed}
    (h : lexeme line c cs = .ok l) : l.token.kind ≠ .finish := by
  intro hf
  unfold lexeme at h
  -- none of the cases makes the end marker
  split at h
  · simp only [numeral] at h
    split at h <;> cases h
    cases hf
  split at h
  · cases h
    simp only [word, wordKind] at hf
    split at hf <;> cases hf
  split at h
  · simp only [literal] at h
    split at h <;> cases h
    cases hf
  split at h
  · cases h
  · cases h
    cases hf

/-- At the end marker nothing is left, and it stands on the line that has been reached. -/
theorem eq_of_scan_finish {line : Nat} {s : List Char} {l : Lexed} (h : scan line s = .ok l)
    (hf : l.token.kind = .finish) : l = ⟨⟨.finish, l.line⟩, l.line, []⟩ := by
  induction s generalizing line with
  | nil => cases h; rfl
  | cons c cs ih =>
    unfold scan at h
    split at h
    · exact ih h
    split at h
    · exact ih h
    · exact absurd hf (kind_ne_finish_of_lexeme h)

/-- At the end marker nothing is left. -/
theorem rest_eq_nil_of_scan {line : Nat} {s : List Char} {l : Lexed}
    (h : scan line s = .ok l) (hf : l.token.kind = .finish) : l.rest = [] := by
  rw [eq_of_scan_finish h hf]

end Scriptlet
