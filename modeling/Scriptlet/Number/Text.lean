import Scriptlet.Text.Class
import Scriptlet.Number.Shortest
import Scriptlet.Number.Decimal

/-!
Numbers of the language as text.

`Number.read?` reads a number: blanks around it are ignored, one sign may come first, and the
rest is a decimal numeral or one of the words `Infinity` and `NaN`, spelled exactly so.
`Number.text` writes a number as programs see it, `Number.plain` as a token shows it, and
`Number.traced` as a trace message does.  All three use the shortest decimal that reads back; they
differ in the wording of infinity, in the sign of zero and in when an exponent is written.

A number is read by its value and not by its text: two numerals that denote decimals near to one
double are the same number.  A numeral that is beyond every double denotes infinity.
-/

namespace Scriptlet
namespace Number

open Binary (rankOf isNegative infinityRank)

/-- The word that a program reads and writes for infinity. -/
def infinityWord : List Char := ['I', 'n', 'f', 'i', 'n', 'i', 't', 'y']

/-- The word for the value that is no number. -/
def nanWord : List Char := ['N', 'a', 'N']

/-- One sign, if there is one, and the rest of the text. -/
def splitSign : List Char → Bool × List Char
  | '-' :: s => (true, s)
  | '+' :: s => (false, s)
  | s => (false, s)

/-- Reads a number without blanks around it. -/
def readExact? (s : List Char) : Option Float :=
  let (negative, body) := splitSign s
  if body = infinityWord then some (Binary.infinity negative)
  else if body = nanWord then some Binary.notANumber
  else (Decimal.read? body).map fun x => x.toFloat negative

/-- Reads a number, blanks around it ignored. -/
def read? (s : String) : Option Float := readExact? (Text.trim s.toList)

/-! ## Writing -/

/-- What a way of writing numbers decides: the word for infinity, whether a zero keeps its minus
sign, and how the magnitude of a finite number is written. -/
structure Style where
  infinity : List Char
  signedZero : Bool
  magnitude : Decimal → List Char

/-- Writes a number in a given style. -/
def write (style : Style) (x : Float) : String :=
  let r := rankOf x
  let sign := if isNegative x then ['-'] else []
  String.ofList <|
    if infinityRank < r then nanWord
    else if r = infinityRank then sign ++ style.infinity
    else if r = 0 then (if style.signedZero then sign else []) ++ style.magnitude ⟨0, 0⟩
    else sign ++ style.magnitude (Decimal.shortest r)

/-- A positional magnitude that always shows a fraction, and scientific notation from `10 ^ 16` on
and below `10 ^ -4`. -/
def tracedMagnitude (x : Decimal) : List Char :=
  if x.digits = 0 then ['0', '.', '0']
  else if x.leadingExponent < -4 ∨ 16 ≤ x.leadingExponent then x.scientific
  else if 0 ≤ x.exponent then x.positional ++ ['.', '0']
  else x.positional

/-- Programs see no exponent and no negative zero. -/
def shownStyle : Style := ⟨infinityWord, false, Decimal.positional⟩

/-- Tokens are shown without an exponent, a zero with its sign. -/
def plainStyle : Style := ⟨['i', 'n', 'f'], true, Decimal.positional⟩

/-- Trace messages tell a number from a whole number. -/
def tracedStyle : Style := ⟨['i', 'n', 'f'], true, tracedMagnitude⟩

/-- The number as programs see it. -/
def text (x : Float) : String := write shownStyle x

/-- The number as a token shows it. -/
def plain (x : Float) : String := write plainStyle x

/-- The number as a trace message shows it. -/
def traced (x : Float) : String := write tracedStyle x

end Number
end Scriptlet
