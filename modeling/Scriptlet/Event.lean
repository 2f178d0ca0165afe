import Scriptlet.Token
import Scriptlet.Value

/-!
Events: what reading and running a program report beside their results.

Each token that is read is a trace event.  Declared functions, calls, the records that calls enter
and resume, and returned values are debugging events.

A `Log` collects events.  It is seen through `Log.toList`, the events in the order in which they
happened.

Every event has a level, and a log that is shown at a level shows the events of this level and of the
more important ones, each as its level and its message.  The messages of calls contain their arguments
as they are displayed, with the quotes of literals, and the depths of the stack; those of tokens
contain the token as it is traced.
-/

namespace Scriptlet

/-- How detailed a report is. -/
inductive Level where
  | debug
  | trace
  deriving DecidableEq, Repr

/-- The word for a level. -/
def Level.word : Level → String
  | .debug => "DEBUG"
  | .trace => "TRACE"

/-- Something that happened. -/
inductive Event where
  | token (t : Token)
  | declared (name : String) (parameters : Nat)
  | calling (name : String) (arguments : List Value)
  | enteringShared (name : String)
  | entering (name : String) (depth : Nat)
  | resuming (depth : Nat)
  | returning (value : Value)
  deriving DecidableEq

namespace Event

/-- Reading tokens is the only trace event. -/
def level : Event → Level
  | .token _ => .trace
  | _ => .debug

/-- The message of an event. -/
def message : Event → String
  | .token t => "line " ++ toString t.line ++ ": token " ++ t.kind.traced
  | .declared name parameters => s!"parsed function {name} with {parameters} parameter(s)"
  | .calling name arguments =>
    "calling " ++ name ++ "(" ++ ", ".intercalate (arguments.map Value.display) ++ ")"
  | .enteringShared name => s!"entering {name} with the shared record"
  | .entering name depth => s!"entering {name} at depth {depth}"
  | .resuming depth => s!"resuming at depth {depth}"
  | .returning value => "returning " ++ value.display

/-- The events that a report of a given level shows. -/
def shownAt : Level → Event → Bool
  | .trace, _ => true
  | .debug, e => e.level = .debug

/-- The line of a report. -/
def report (e : Event) : String := e.level.word ++ " " ++ e.message

/-- The report of a given level. -/
def reports (level : Level) (events : List Event) : List String :=
  (events.filter (shownAt level)).map report

end Event

/-- Events that have been collected; the last one is in front, where adding is cheap. -/
structure Log where
  newestFirst : List Event
  deriving DecidableEq

namespace Log

/-- Nothing has happened. -/
def empty : Log := ⟨[]⟩

/-- Adds an event. -/
def add (l : Log) (e : Event) : Log := ⟨e :: l.newestFirst⟩

/-- Adds several events, in order. -/
def addAll (l : Log) (events : List Event) : Log := events.foldl add l

/-- The events in the order in which they happened. -/
def toList (l : Log) : List Event := l.newestFirst.reverse

@[simp] theorem toList_add (l : Log) (e : Event) : (l.add e).toList = l.toList ++ [e] := by
  simp [add, toList]

@[simp] theorem toList_addAll (l : Log) (events : List Event) :
    (l.addAll events).toList = l.toList ++ events := by
  induction events generalizing l with
  | nil => simp [addAll]
  | cons e rest ih =>
    show ((l.add e).addAll rest).toList = _
    simp [ih]

end Log
end Scriptlet
