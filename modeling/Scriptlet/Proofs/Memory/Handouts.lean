import Mathlib.Data.Finset.Card
import Scriptlet.Memory

/-!
Records over any sequence of handouts and assignments.

A memory is asked for the record of a function that is entered, for the one to go back to, or for one
that belongs to no function, and variables of any record that has been handed out are given values,
also when the record has been popped long ago.  What was asked and which record was handed out make up
the past, the last step first; `History` says which pasts lead to a memory.

From the past alone it can be said what the memory must do next.  Its depth and the records that may
become current again follow from the enters and restores (`depth`, `unmatched`), what a variable has
from the assignments (`lastInserted`), and how many variables a record has from the names
(`insertedNames`).  These functions are recursions on the past that know nothing of memories, so they
are a specification.

The invariant (`Consistent`) says that a memory has what the past tells: the records that were handed
out are there, with the variables and the values that they were given; and for the stack, that its
handles are those of the unmatched enters.  It is kept by each operation, and so it holds after any
steps (`History.consistent`).  There are four operations and so four lemmas.  What is different with
the two disciplines is only what `enter` and `restore` hand out.

What the next step does is then read off the invariant.  A record that is handed out anew has a handle
that no earlier step has handed out, as handles are places in an array that only grows; this is why
assignments through old handles can never reach it.

Main statement: `Memory.answers_of_history`.
-/

namespace Scriptlet
namespace Memory

/-- One step: what was asked of the memory, and the record that was handed out or assigned to. -/
inductive Step where
  | enter (function : String) (record : Handle)
  | restore (record : Handle)
  | fresh (record : Handle)
  | insert (record : Handle) (name : String) (value : Value)

/-- The record that a step has handed out. -/
def Step.handout? : Step → Option Handle
  | .enter _ record => some record
  | .restore record => some record
  | .fresh record => some record
  | .insert _ _ _ => none

/-- The record, if the discipline has handed it out. -/
def Step.managed? : Step → Option Handle
  | .enter _ record => some record
  | .restore record => some record
  | _ => none

/-- The steps so far, the last one first. -/
abbrev Past := List Step

/-! ## What the past tells -/

namespace Past

/-- All records handed out. -/
def handedOut (past : Past) : List Handle := past.filterMap Step.handout?

/-- Those that were handed out for a function, entered or gone back to. -/
def managed (past : Past) : List Handle := past.filterMap Step.managed?

/-- The depth of the stack; where there is nothing on it, a restore does nothing to it. -/
def depth : Past → Nat
  | [] => 0
  | .enter _ _ :: past => depth past + 1
  | .restore _ :: past => depth past - 1
  | _ :: past => depth past

/-- The records of the enters that no restore has matched, the most recent first.  A restore matches
the most recent of them. -/
def unmatched : Past → List Handle
  | [] => []
  | .enter _ record :: past => record :: unmatched past
  | .restore _ :: past => (unmatched past).tail
  | _ :: past => unmatched past

/-- The value that was last given to a variable of a record. -/
def lastInserted (record : Handle) (name : String) : Past → Option Value
  | [] => none
  | .insert other assigned value :: past =>
    if record = other ∧ name = assigned then some value else lastInserted record name past
  | _ :: past => lastInserted record name past

/-- The names that were given values in a record, repetitions included. -/
def insertedNames (record : Handle) : Past → List String
  | [] => []
  | .insert other name _ :: past =>
    if record = other then name :: insertedNames record past else insertedNames record past
  | _ :: past => insertedNames record past

variable {past : Past} {record : Handle} {name : String}

/-- The depth is the number of enters that are unmatched. -/
theorem length_unmatched (past : Past) : (unmatched past).length = depth past := by
  induction past with
  | nil => rfl
  | cons step past ih =>
    cases step with
    | enter function record => exact congrArg (· + 1) ih
    | restore record =>
      show (unmatched past).tail.length = depth past - 1
      rw [List.length_tail, ih]
    | fresh record => exact ih
    | insert record name value => exact ih

/-- A variable has a value once its name was given one. -/
theorem lastInserted_isSome_iff :
    (lastInserted record name past).isSome ↔ name ∈ insertedNames record past := by
  induction past with
  | nil => simp [lastInserted, insertedNames]
  | cons step past ih =>
    cases step with
    | insert other assigned value =>
      rw [lastInserted, insertedNames]
      by_cases hrecord : record = other
      · rw [hrecord] at ih ⊢
        by_cases hname : name = assigned <;> simp [hname, ih]
      · simp [hrecord, ih]
    | _ => exact ih

/-- What is on the stack has been handed out. -/
theorem mem_handedOut_of_unmatched (h : record ∈ unmatched past) : record ∈ handedOut past := by
  induction past with
  | nil => cases h
  | cons step past ih =>
    cases step with
    | enter function own =>
      rcases List.mem_cons.1 h with rfl | hpast
      · exact List.mem_cons_self
      · exact List.mem_cons_of_mem _ (ih hpast)
    | restore own => exact List.mem_cons_of_mem _ (ih (List.mem_of_mem_tail h))
    | fresh own => exact List.mem_cons_of_mem _ (ih h)
    | insert own name value => exact ih h

end Past

/-- The past leads from a new memory with the discipline to this one.  Only records that have been
handed out are assigned to. -/
inductive History (d : Discipline) : Past → Memory → Prop where
  | start : History d [] (new d)
  | enter {past : Past} {m : Memory} (h : History d past m) (function : String) :
      History d (.enter function (m.enter function).record :: past) (m.enter function).memory
  | restore {past : Past} {m : Memory} (h : History d past m) :
      History d (.restore m.restore.record :: past) m.restore.memory
  | fresh {past : Past} {m : Memory} (h : History d past m) :
      History d (.fresh m.fresh.1 :: past) m.fresh.2
  | insert {past : Past} {m : Memory} (h : History d past m) {record : Handle}
      (hrecord : record ∈ past.handedOut) (name : String) (value : Value) :
      History d (.insert record name value :: past) (m.insert record name value)

variable {d : Discipline} {past : Past} {m : Memory} {record : Handle} {name : String}

/-! ## The operations

What each operation does to look-ups and to what is held. -/

/-- Nothing is found in a new memory. -/
theorem find?_new : (new d).find? record name = none := by
  cases d with
  | stack => rfl
  | shared => exact @find?_push_empty #[] _ (.shared 0) record name

/-- A record that belongs to no function changes no other. -/
theorem find?_fresh : m.fresh.2.find? record name = m.find? record name :=
  find?_push_empty m.holding

/-- The size of a record is the number of variables that are found in it. -/
theorem size_eq_card {names : List String}
    (h : ∀ name, (m.find? record name).isSome ↔ name ∈ names) :
    m.size record = names.toFinset.card := by
  unfold size
  cases hrecord : m.records[record]? with
  | none =>
    have hnone : names = [] := by
      refine List.eq_nil_iff_forall_not_mem.2 fun name hname => ?_
      have hfound := (h name).2 hname
      rw [find?, hrecord] at hfound
      cases hfound
    rw [hnone]
    rfl
  | some t =>
    -- a table has no name twice, so its size is the number of its names
    have hsame : t.names.toFinset = names.toFinset := by
      ext name
      rw [List.mem_toFinset, List.mem_toFinset, ← h name, find?, hrecord, Option.bind_some,
        Option.isSome_iff_ne_none, Ne, Table.find?_eq_none_iff, not_not]
    have hnodup : t.names.Nodup := t.nodup
    show t.size = _
    rw [Table.size_eq, ← List.toFinset_card_of_nodup hnodup, hsame]

/-- There is nothing in a record that has not been made. -/
theorem find?_size : m.find? m.records.size name = none := by
  unfold find?
  rw [Array.getElem?_size]
  rfl

/-- A record in which nothing is found is empty. -/
theorem size_eq_zero (h : ∀ name, m.find? record name = none) : m.size record = 0 := by
  have hnone : ∀ name, (m.find? record name).isSome ↔ name ∈ ([] : List String) := by simp [h]
  exact size_eq_card hnone

/-- After a restore the record below the top is the current one; if there is none, one is made. -/
theorem restore_stack {records : Array Record} {active : Array Handle} :
    restore ⟨records, .stack active⟩ =
      match active.toList.reverse.tail.head? with
      | some below => ⟨below, ⟨records, .stack active.pop⟩, [.resuming active.pop.size]⟩
      | none =>
        ⟨records.size, ⟨records.push .empty, .stack active.pop⟩, [.resuming active.pop.size]⟩ := by
  rw [List.tail_reverse, List.head?_reverse, ← Array.toList_pop, Array.getLast?_toList]
  rfl

/-! ## The invariant

One lemma for each operation. -/

/-- What the discipline holds on to: one record that all functions get, or those of the enters that
are unmatched. -/
inductive Holds : Discipline → Past → Memory → Prop where
  | shared {past : Past} {m : Memory} {record : Handle} (holding : m.holding = .shared record)
      (allocated : record < m.records.size) (same : ∀ other ∈ past.managed, other = record) :
      Holds .shared past m
  | stack {past : Past} {m : Memory} {active : Array Handle} (holding : m.holding = .stack active)
      (active : active.toList.reverse = past.unmatched) : Holds .stack past m

/-- The memory is as the past tells. -/
structure Consistent (d : Discipline) (past : Past) (m : Memory) : Prop where
  found : ∀ record name, m.find? record name = past.lastInserted record name
  allocated : ∀ record ∈ past.handedOut, record < m.records.size
  holds : Holds d past m

theorem consistent_new : Consistent d [] (new d) where
  found _ _ := find?_new
  allocated _ hrecord := absurd hrecord List.not_mem_nil
  holds := by
    cases d with
    | shared => exact .shared rfl Nat.zero_lt_one fun _ hother => absurd hother List.not_mem_nil
    | stack => exact .stack rfl rfl

namespace Consistent

/-- A handout of a record that is there, or of the next one, which is made for it. -/
theorem handedOut_cons (h : Consistent d past m) {step : Step} {m' : Memory} {own : Handle}
    (hstep : step.handout? = some own) (hown : own < m'.records.size)
    (hsize : m.records.size ≤ m'.records.size) :
    ∀ record ∈ Past.handedOut (step :: past), record < m'.records.size := by
  unfold Past.handedOut
  rw [List.filterMap_cons_some hstep]
  refine List.forall_mem_cons.2 ⟨hown, fun record hrecord => ?_⟩
  exact Nat.lt_of_lt_of_le (h.allocated record hrecord) hsize

/-- Entering a function hands out a new record or the shared one. -/
theorem enter (h : Consistent d past m) (function : String) :
    Consistent d (.enter function (m.enter function).record :: past) (m.enter function).memory := by
  obtain ⟨records, holding⟩ := m
  refine ⟨fun record name => find?_enter.trans (h.found record name), ?_, ?_⟩
  · -- the record is the shared one, or a new one
    cases h.holds with
    | shared hholding hallocated hsame =>
      cases hholding
      exact h.handedOut_cons rfl hallocated (Nat.le_refl _)
    | stack hholding hactive =>
      cases hholding
      refine h.handedOut_cons rfl ?_ ?_ <;> simp [Memory.enter]
  · cases h.holds with
    | shared hholding hallocated hsame =>
      cases hholding
      exact .shared rfl hallocated (List.forall_mem_cons.2 ⟨rfl, hsame⟩)
    | @stack _ _ active hholding hactive =>
      cases hholding
      refine .stack rfl ?_
      rw [Array.toList_push, List.reverse_concat, hactive]
      rfl

/-- Going back takes the last unmatched enter away. -/
theorem restore (h : Consistent d past m) :
    Consistent d (.restore m.restore.record :: past) m.restore.memory := by
  obtain ⟨records, holding⟩ := m
  refine ⟨fun record name => find?_restore.trans (h.found record name), ?_, ?_⟩
  · cases h.holds with
    | shared hholding hallocated hsame =>
      cases hholding
      exact h.handedOut_cons rfl hallocated (Nat.le_refl _)
    | stack hholding hactive =>
      cases hholding
      rw [restore_stack, hactive]
      -- the record below is one that was handed out, or it is a new one
      split
      · next below hbelow =>
        have hmem := List.mem_of_mem_tail (List.mem_of_mem_head? hbelow)
        have hold := h.allocated below (Past.mem_handedOut_of_unmatched hmem)
        exact h.handedOut_cons rfl hold (Nat.le_refl _)
      · refine h.handedOut_cons rfl ?_ ?_ <;> simp
  · cases h.holds with
    | shared hholding hallocated hsame =>
      cases hholding
      exact .shared rfl hallocated (List.forall_mem_cons.2 ⟨rfl, hsame⟩)
    | @stack _ _ active hholding hactive =>
      cases hholding
      have hpop : active.pop.toList.reverse = past.unmatched.tail := by
        rw [Array.toList_pop, ← List.tail_reverse, hactive]
      rw [restore_stack]
      split <;> exact .stack rfl hpop

/-- A record that belongs to no function is no matter of the discipline. -/
theorem fresh (h : Consistent d past m) : Consistent d (.fresh m.fresh.1 :: past) m.fresh.2 := by
  have hlt : m.records.size < m.fresh.2.records.size := by simp [Memory.fresh]
  refine ⟨fun record name => find?_fresh.trans (h.found record name), ?_, ?_⟩
  · exact h.handedOut_cons rfl hlt (Nat.le_of_lt hlt)
  · cases h.holds with
    | shared hholding hallocated hsame => exact .shared hholding (Nat.lt_trans hallocated hlt) hsame
    | stack hholding hactive => exact .stack hholding hactive

/-- An assignment gives one variable a value, through whichever handle. -/
theorem insert (h : Consistent d past m) (hrecord : record ∈ past.handedOut) (name : String)
    (value : Value) :
    Consistent d (.insert record name value :: past) (m.insert record name value) where
  found other read := by
    rw [find?_insert (h.allocated record hrecord), Past.lastInserted, h.found]
  allocated other hother := by
    rw [size_insert]
    exact h.allocated other hother
  holds := by
    cases h.holds with
    | shared hholding hallocated hsame =>
      exact .shared hholding (Nat.lt_of_lt_of_eq hallocated size_insert.symm) hsame
    | stack hholding hactive => exact .stack hholding hactive

end Consistent

/-- **The invariant.**  It holds after any steps. -/
theorem History.consistent (h : History d past m) : Consistent d past m := by
  induction h with
  | start => exact consistent_new
  | enter _ function ih => exact ih.enter function
  | restore _ ih => exact ih.restore
  | fresh _ ih => exact ih.fresh
  | insert _ hrecord name value ih => exact ih.insert hrecord name value

/-! ## What comes next -/

/-- The record, which the memory has, is none of those handed out before, and it is empty. -/
structure Anew (past : Past) (record : Handle) (m : Memory) : Prop where
  notBefore : record ∉ past.handedOut
  unbound : ∀ name, m.find? record name = none
  empty : m.size record = 0

namespace Consistent

/-- The next record is made anew. -/
theorem anew (h : Consistent d past m) {m' : Memory}
    (hfind : ∀ name, m'.find? m.records.size name = m.find? m.records.size name) :
    Anew past m.records.size m' := by
  have hunbound : ∀ name, m'.find? m.records.size name = none := fun name =>
    (hfind name).trans find?_size
  exact ⟨fun hmem => Nat.lt_irrefl _ (h.allocated _ hmem), hunbound, size_eq_zero hunbound⟩

/-- With a stack, a function that is entered has a record that no step has handed out, and it is
empty. -/
theorem anew_enter (h : Consistent .stack past m) (function : String) :
    Anew past (m.enter function).record (m.enter function).memory := by
  obtain ⟨records, holding⟩ := m
  cases h.holds with
  | stack hholding hactive =>
    cases hholding
    exact h.anew fun _ => find?_enter

/-- The depth that the memory gives is that of the past. -/
theorem depth?_eq (h : Consistent .stack past m) : m.depth? = some past.depth := by
  obtain ⟨records, holding⟩ := m
  cases h.holds with
  | stack hholding hactive =>
    cases hholding
    rw [← Past.length_unmatched, ← hactive, List.length_reverse, Array.length_toList]
    rfl

/-- The record that is handed out by a restore, where an enter stays unmatched. -/
theorem restore_below (h : Consistent .stack past m) (hdepth : 2 ≤ past.depth) :
    past.unmatched.tail.head? = some m.restore.record := by
  obtain ⟨records, holding⟩ := m
  cases h.holds with
  | stack hholding hactive =>
    cases hholding
    rw [restore_stack, hactive]
    rw [← Past.length_unmatched] at hdepth
    match past.unmatched, hdepth with
    | _ :: below :: _, _ => rfl

/-- And where none does. -/
theorem anew_restore (h : Consistent .stack past m) (hdepth : past.depth ≤ 1) :
    Anew past m.restore.record m.restore.memory := by
  obtain ⟨records, holding⟩ := m
  have hnone : past.unmatched.tail.head? = none := by
    rw [← Past.length_unmatched] at hdepth
    match past.unmatched, hdepth with
    | [], _ => rfl
    | [_], _ => rfl
  cases h.holds with
  | stack hholding hactive =>
    cases hholding
    rw [restore_stack, hactive, hnone]
    exact h.anew fun _ => find?_push_empty _

/-- All functions have one record. -/
theorem same (h : Consistent .shared past m) (function : String) :
    (m.enter function).record = m.restore.record ∧
      ∀ record ∈ past.managed, record = m.restore.record := by
  obtain ⟨records, holding⟩ := m
  cases h.holds with
  | shared hholding hallocated hsame =>
    cases hholding
    exact ⟨rfl, hsame⟩

end Consistent

/-- What a memory does next, by its discipline and its past. -/
structure Answers (d : Discipline) (past : Past) (m : Memory) : Prop where
  /-- A record for no function is a new one. -/
  fresh : Anew past m.fresh.1 m.fresh.2
  /-- So is the record of a function that is entered, if there is a stack. -/
  enter : d = .stack → ∀ function, Anew past (m.enter function).record (m.enter function).memory
  depth : d = .stack → m.depth? = some past.depth
  /-- A restore that leaves an enter unmatched hands out the record of the most recent one, with all
  that has been assigned to it. -/
  below : d = .stack → 2 ≤ past.depth →
    past.unmatched.tail.head? = some m.restore.record ∧
      ∀ name, m.restore.memory.find? m.restore.record name = past.lastInserted m.restore.record name
  /-- A restore that leaves none hands out a new record. -/
  outermost : d = .stack → past.depth ≤ 1 → Anew past m.restore.record m.restore.memory
  /-- Without a stack it is the same record always. -/
  same : d = .shared → ∀ function, (m.enter function).record = m.restore.record ∧
    ∀ record ∈ past.managed, record = m.restore.record
  found : ∀ record name, m.find? record name = past.lastInserted record name
  size : ∀ record, m.size record = (past.insertedNames record).toFinset.card

/-- **Records are handed out by the discipline and keep what is assigned to them**, whatever steps
have been taken before. -/
theorem answers_of_history (h : History d past m) : Answers d past m := by
  have hm := h.consistent
  refine ⟨hm.anew fun _ => find?_fresh, ?_, ?_, ?_, ?_, ?_, hm.found, fun record => ?_⟩
  · rintro rfl
    exact hm.anew_enter
  · rintro rfl
    exact hm.depth?_eq
  · rintro rfl hdepth
    exact ⟨hm.restore_below hdepth, fun name => find?_restore.trans (hm.found _ name)⟩
  · rintro rfl
    exact hm.anew_restore
  · rintro rfl
    exact hm.same
  · refine size_eq_card fun name => ?_
    rw [hm.found]
    exact Past.lastInserted_isSome_iff

/-- It holds after a record has been popped and assigned to all the same. -/
theorem answers_of_history_popped :
    ∃ m, History .stack [.insert 1 "y" (.number 3), .restore 0, .insert 1 "x" (.number 2),
        .enter "f" 1, .insert 0 "x" (.number 1), .enter "main" 0] m ∧
      Answers .stack [.insert 1 "y" (.number 3), .restore 0, .insert 1 "x" (.number 2),
        .enter "f" 1, .insert 0 "x" (.number 1), .enter "main" 0] m := by
  have hcalled : History .stack [.enter "f" 1, .insert 0 "x" (.number 1), .enter "main" 0] _ :=
    ((History.start.enter "main").insert List.mem_cons_self "x" (.number 1)).enter "f"
  have hreturned : History .stack [.restore 0, .insert 1 "x" (.number 2), .enter "f" 1,
      .insert 0 "x" (.number 1), .enter "main" 0] _ :=
    (hcalled.insert List.mem_cons_self "x" (.number 2)).restore
  have hassigned := hreturned.insert (List.mem_cons_of_mem _ List.mem_cons_self) "y" (.number 3)
  exact ⟨_, hassigned, answers_of_history hassigned⟩

end Memory
end Scriptlet
