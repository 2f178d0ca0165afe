import Scriptlet.Event
import Scriptlet.Table

/-!
Records of variables, and the two ways of handing them out.

A record holds the variables of a function; it is known by its handle, its position in the memory.
Records are never given up, so a handle stays good, also after the record has been popped.

Entering a function and returning from it each hand out a record.  With the *shared* discipline it
is the same record always.  With the *stack* discipline entering pushes a fresh one and returning
pops it, handing out the one below, or a fresh one where none is below.

A handle is a number, and records are found by it without regard to who holds them.  So a record that
is no longer on the stack can be read and assigned to, and so can the one that is handed out by a
return with none below, which never was on it.

What each operation does to the look-ups is said by one lemma beside it.  An assignment changes one
variable of one record, and handing records out changes none.
-/

namespace Scriptlet

/-- The variables of a function with their values. -/
abbrev Record := Table Value

/-- The position of a record. -/
abbrev Handle := Nat

/-- How records are handed out. -/
inductive Discipline where
  | shared
  | stack
  deriving DecidableEq, Repr

/-- The records that the discipline itself holds on to; the top of the stack comes last. -/
inductive Holding where
  | shared (record : Handle)
  | stack (active : Array Handle)
  deriving DecidableEq, Repr

/-- All records made so far, and those that are held. -/
structure Memory where
  records : Array Record
  holding : Holding

/-- A record that has been handed out, the memory after that, and what there is to report. -/
structure Handout where
  record : Handle
  memory : Memory
  events : List Event

namespace Memory

/-- The memory before anything has been handed out. -/
def new : Discipline → Memory
  | .shared => ⟨#[.empty], .shared 0⟩
  | .stack => ⟨#[], .stack #[]⟩

/-- Makes an empty record. -/
def fresh (m : Memory) : Handle × Memory :=
  (m.records.size, { m with records := m.records.push .empty })

/-- How many records are on the stack, if there is one. -/
def depth? (m : Memory) : Option Nat :=
  match m.holding with
  | .shared _ => none
  | .stack active => some active.size

/-- The record for a function that is entered. -/
def enter : Memory → String → Handout
  | ⟨records, .shared record⟩, function =>
    ⟨record, ⟨records, .shared record⟩, [.enteringShared function]⟩
  | ⟨records, .stack active⟩, function =>
    let depth := active.size + 1
    ⟨records.size, ⟨records.push .empty, .stack (active.push records.size)⟩,
      [.entering function depth]⟩

/-- The record that is current again when a function returns. -/
def restore : Memory → Handout
  | ⟨records, .shared record⟩ => ⟨record, ⟨records, .shared record⟩, []⟩
  | ⟨records, .stack active⟩ =>
    let below := active.pop
    let depth := below.size
    match below.back? with
    | some record => ⟨record, ⟨records, .stack below⟩, [.resuming depth]⟩
    | none => ⟨records.size, ⟨records.push .empty, .stack below⟩, [.resuming depth]⟩

/-- The value of a variable in a record. -/
def find? (m : Memory) (record : Handle) (name : String) : Option Value :=
  m.records[record]?.bind fun bindings => bindings.find? name

/-- Gives a variable of a record a value. -/
def insert (m : Memory) (record : Handle) (name : String) (value : Value) : Memory :=
  { m with records := m.records.modify record fun bindings => bindings.insert name value }

/-- How many variables a record has. -/
def size (m : Memory) (record : Handle) : Nat :=
  (m.records[record]?.map Table.size).getD 0

/-- A look-up after an assignment sees it in the record that it was made in and nowhere else. -/
theorem find?_insert {m : Memory} {record other : Handle} {name read : String} {value : Value}
    (h : record < m.records.size) :
    (m.insert record name value).find? other read =
      if other = record ∧ read = name then some value else m.find? other read := by
  unfold find? insert
  by_cases hr : other = record
  · subst hr
    by_cases hn : read = name <;> simp [Array.getElem_modify, h, hn]
  · have hr' : ¬ record = other := fun e => hr e.symm
    simp [Array.getElem?_modify, hr, hr']

/-- An assignment makes no record. -/
theorem size_insert {m : Memory} {record : Handle} {name : String} {value : Value} :
    (m.insert record name value).records.size = m.records.size := Array.size_modify

/-- Where there is no such record, there is nothing to assign to. -/
theorem insert_of_size_le {m : Memory} {record : Handle} {name : String} {value : Value}
    (h : m.records.size ≤ record) : m.insert record name value = m := by
  unfold insert
  rw [show m.records.modify record _ = m.records by
    rw [Array.modify, Array.modifyM, dif_neg (Nat.not_lt.2 h)]; rfl]

/-- An assignment changes nothing that is found but the variable it is made to. -/
theorem find?_insert_of_ne {m : Memory} {record other : Handle} {name read : String} {value : Value}
    (h : ¬ (other = record ∧ read = name)) :
    (m.insert record name value).find? other read = m.find? other read := by
  by_cases hrecord : record < m.records.size
  · rw [find?_insert hrecord, if_neg h]
  · rw [insert_of_size_le (Nat.le_of_not_lt hrecord)]

/-- An empty record more changes no look-up. -/
theorem find?_push_empty {records : Array Record} {holding : Holding} (holding' : Holding)
    {record : Handle} {name : String} :
    (⟨records.push .empty, holding⟩ : Memory).find? record name =
      (⟨records, holding'⟩ : Memory).find? record name := by
  unfold find?
  dsimp only
  rw [Array.getElem?_push]
  split
  · next hrecord =>
    rw [hrecord, Array.getElem?_size]
    rfl
  · rfl

/-- Entering a function changes no look-up. -/
theorem find?_enter {m : Memory} {function : String} {record : Handle} {name : String} :
    (m.enter function).memory.find? record name = m.find? record name := by
  obtain ⟨records, holding⟩ := m
  cases holding with
  | shared current => rfl
  | stack active => exact find?_push_empty _

/-- Returning from one changes none either. -/
theorem find?_restore {m : Memory} {record : Handle} {name : String} :
    m.restore.memory.find? record name = m.find? record name := by
  obtain ⟨records, holding⟩ := m
  cases holding with
  | shared current => rfl
  | stack active =>
    unfold restore
    dsimp only
    split
    · rfl
    · exact find?_push_empty _

end Memory
end Scriptlet
