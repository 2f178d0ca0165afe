import Scriptlet.Number.Text
import Scriptlet.Text.Graphic

/-!
Tokens: the words, numbers, texts and symbols that a program consists of.

A token carries the line on which it starts.  `display` writes it as in a program, `describe` names
its class as syntax errors do, and `traced` shows it unambiguously in trace messages.

There are two ways to write a token.  For the user it is written as a program would have it, and a
text keeps its quotes.  For a trace it is written so that nothing about it is in doubt, with
characters that do not show replaced by their numbers.
-/

namespace Scriptlet

/-- The reserved words. -/
inductive Keyword where
  | writeValue
  | readValue
  | whileLoop
  | ifThen
  | elseThen
  | function
  | returnValue
  deriving DecidableEq, Repr

namespace Keyword

/-- All reserved words. -/
def all : List Keyword :=
  [.writeValue, .readValue, .whileLoop, .ifThen, .elseThen, .function, .returnValue]

/-- The word as a program spells it. -/
def spelling : Keyword → String
  | .writeValue => "write"
  | .readValue => "read"
  | .whileLoop => "while"
  | .ifThen => "if"
  | .elseThen => "else"
  | .function => "fun"
  | .returnValue => "return"

/-- The reserved word that is spelled `s`. -/
def ofSpelling? (s : String) : Option Keyword := all.find? fun k => k.spelling = s

/-- Each reserved word is found by its spelling. -/
theorem ofSpelling?_spelling (k : Keyword) : ofSpelling? k.spelling = some k := by
  cases k <;> decide

/-- Only its own spelling finds a reserved word. -/
theorem spelling_of_ofSpelling? {s : String} {k : Keyword} (h : ofSpelling? s = some k) :
    k.spelling = s := by
  have := List.find?_some h
  simpa using this

end Keyword

/-- What a token is; a text literal is kept with its quotes. -/
inductive Token.Kind where
  | number (x : Float)
  | identifier (name : String)
  | text (literal : String)
  | keyword (word : Keyword)
  | symbol (c : Char)
  | finish
  deriving DecidableEq

namespace Token.Kind

/-- The token as a program spells it. -/
def display : Kind → String
  | .number x => Number.plain x
  | .identifier name => name
  | .text literal => literal
  | .keyword word => word.spelling
  | .symbol c => c.toString
  | .finish => "<end>"

/-- The class of the token, as syntax errors name it. -/
def describe : Kind → String
  | .number _ => "NUMBER"
  | .identifier _ => "IDENTIFIER"
  | .text _ => "STRING"
  | .keyword word => word.spelling.toUpper
  | .symbol c => c.toString
  | .finish => "EOLN"

/-- The token as trace messages show it. -/
def traced : Kind → String
  | .number x => "Number(" ++ Number.traced x ++ ")"
  | .identifier name => "Identifier(" ++ Text.quoteText name ++ ")"
  | .text literal => "Text(" ++ Text.quoteText literal ++ ")"
  | .keyword word => "Keyword(" ++ word.spelling.capitalize ++ ")"
  | .symbol c => "Symbol(" ++ Text.quoteChar c ++ ")"
  | .finish => "End"

end Token.Kind

/-- A token and the line on which it starts. -/
structure Token where
  kind : Token.Kind
  line : Nat
  deriving DecidableEq

end Scriptlet
