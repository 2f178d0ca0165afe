import Scriptlet.Number.Text

/-!
Values of a running program: numbers and texts.

A text that came from a literal keeps its two quotes; they are taken off when the value is
observed, that is, written or joined to another value.  Text from anywhere else (an input line, a
concatenation) is classified by `Value.ofText`: it becomes a number if it reads as one.

Whether an operator takes a value for a number is another question (`Value.asNumber?`): a text that
reads as a number is one for every operator.  `+` adds two values that are numbers in this sense, and
joins what is observed of any other two; what it has joined is classified like text from outside.

`observed` looks at the first character of a text and, if that is a quote, takes off the first and the
last.
-/

namespace Scriptlet

/-- The character that delimits a text literal. -/
def quoteMark : Char := '"'

/-- A number or a text. -/
inductive Value where
  | number (x : Float)
  | text (s : String)
  deriving DecidableEq

namespace Value

/-- What a function yields that ends without returning a value, as a literal. -/
def noneLiteral : String := "\"None\""

/-- The value of a function that ends without returning one. -/
def none : Value := .text noneLiteral

/-- Does the text start with a quote? -/
def startsQuoted (s : String) : Bool := s.toList.head? = some quoteMark

/-- Text from outside the program's literals: a number if it reads as one. -/
def ofText (s : String) : Value :=
  match Number.read? s with
  | some x => if startsQuoted s then .text s else .number x
  | Option.none => .text s

/-- Is the value a literal, delimiting quotes included? -/
def isLiteral : Value → Bool
  | .number _ => false
  | .text s => startsQuoted s

/-- The value as an operand of arithmetic. -/
def asNumber? : Value → Option Float
  | .number x => some x
  | .text s => Number.read? s

/-- The text without its first and its last character. -/
def stripEnds (s : String) : String := String.ofList (s.toList.drop 1).dropLast

/-- The value as output shows it: a literal loses its delimiters. -/
def observed : Value → String
  | .number x => Number.text x
  | .text s => if startsQuoted s then stripEnds s else s

/-- The value as a message shows it: quotes are kept. -/
def display : Value → String
  | .number x => Number.text x
  | .text s => s

/-- Two numbers are added; anything else is joined as text, and the result classified. -/
def add (a b : Value) : Value :=
  match a.asNumber?, b.asNumber? with
  | some x, some y => .number (x + y)
  | _, _ => ofText (a.observed ++ b.observed)

/-- Texts that do not start with a quote are observed as they are. -/
theorem observed_text_of_not_startsQuoted {s : String} (h : startsQuoted s = false) :
    (text s).observed = s := by simp [observed, h]

/-- A quoted text is observed without its quotes. -/
theorem observed_literal (s : List Char) :
    (text (String.ofList (quoteMark :: (s ++ [quoteMark])))).observed = String.ofList s := by
  simp [observed, startsQuoted, stripEnds]

end Value
end Scriptlet
