import Scriptlet.Proofs.Session.Parallel
import Scriptlet.Proofs.Session.Safety
import Scriptlet.Proofs.Session.StackIsolation

/-!
A run does not depend on what the session has been through.

A fault resets nothing.  The functions that were active leave their records on the stack, the
current record is whatever it was, and the next run starts on top of all that.  With the stack
discipline none of it can be seen: a run looks into the records of its own functions only, and these
are new.

Two runs of one program are compared, in two sessions with different pasts.  A record that the runs
have made is known by how many they had made before it, so a record of the first run is the `i`-th
from `m` on and its counterpart the `i`-th from `n` on (`Overlaid`).  The current records are
counterparts as long as a function is active.  Only the last return differs: it resumes a record
from the past, or makes a new one where there is none, and after it nothing is looked up any more.

The relation is an instance of `Parallel`, and all that has to be shown for it is what becomes of
counterparts in the operations of a session.

* A variable is looked up in the current record, so it is the same in both.
* An assignment goes to counterparts and leaves counterparts.
* Entering a function pushes a new record on both stacks, the next in number on both sides.
* A return pops both.  If a function is still active its record is the next on either stack, and these
  are counterparts; if none is, no more is claimed than that the records made by the runs are on no
  stack.
* The streams are the same in both, as far as a run can tell: there is the same input, and the outputs
  accept the same from now on, whatever they have accepted before (`SameTraffic`).

What has been written differs by what was there before.  So it is compared as what comes behind that
in either session, and this grows by the same bytes in both.

Main statement: `run_forgets_history`, for every program that is read.
-/

namespace Scriptlet

/-! ## What a stack hands out -/

namespace Memory

variable {m : Memory} {active : Array Handle}

/-- Entering a function, with the stack written out. -/
theorem enter_of_stack (h : m.holding = .stack active) (name : String) :
    m.enter name = ⟨m.records.size, ⟨m.records.push .empty, .stack (active.push m.records.size)⟩,
      [.entering name (active.size + 1)]⟩ := by
  obtain ⟨records, holding⟩ := m
  cases h
  rfl

/-- Returning pops the stack, whether there is a record below or not. -/
theorem holding_restore (h : m.holding = .stack active) :
    m.restore.memory.holding = .stack active.pop := by
  obtain ⟨records, holding⟩ := m
  cases h
  simp only [restore]
  split <;> rfl

/-- Returning to a record that is below on the stack. -/
theorem restore_of_back? (h : m.holding = .stack active) {record : Handle}
    (hback : active.pop.back? = some record) :
    m.restore = ⟨record, ⟨m.records, .stack active.pop⟩, [.resuming active.pop.size]⟩ := by
  obtain ⟨records, holding⟩ := m
  cases h
  simp only [restore, hback]

end Memory

namespace Session

/-! ## Counterparts

What two sessions with different pasts have in common while a run goes on. -/

/-- The records of the frames, numbered from `base` on, on top of the stack `under`.  The frame at
the top comes first in the frames and last here. -/
def stackOver (under : Array Handle) (base : Nat) (frames : List Nat) : Array Handle :=
  under ++ (frames.map (base + ·)).reverse.toArray

theorem stackOver_nil {under : Array Handle} {base : Nat} : stackOver under base [] = under := by
  simp [stackOver]

theorem stackOver_cons {under : Array Handle} {base frame : Nat} {frames : List Nat} :
    stackOver under base (frame :: frames) = (stackOver under base frames).push (base + frame) := by
  simp [stackOver]

/-- The sessions have stacks of counterparts, over anything at all: the records of `s` from `m` on
are those of `t` from `n` on, while there are any frames. -/
structure Overlaid (m n : Nat) (frames : List Nat) (s t : Session) : Prop where
  holding : ∃ under, s.memory.holding = .stack (stackOver under m frames)
  holding' : ∃ under, t.memory.holding = .stack (stackOver under n frames)
  current : ∀ top ∈ frames.head?, s.current = m + top ∧ t.current = n + top
  records : frames ≠ [] → ∀ i, s.memory.records[m + i]? = t.memory.records[n + i]?
  size : frames ≠ [] → ∃ made, s.memory.records.size = m + made ∧ t.memory.records.size = n + made

/-- The sessions have written the same after `w` and `w'`, and will read and write the same. -/
structure SameTraffic (w w' : ByteArray) (s t : Session) : Prop where
  input : s.input = t.input
  output : s.output.Alike t.output
  written : ∃ bytes, s.output.written = w ++ bytes ∧ t.output.written = w' ++ bytes

/-- Two runs with `depth` active functions. -/
structure Counterparts (w w' : ByteArray) (depth : Nat) (s t : Session) : Prop where
  traffic : SameTraffic w w' s t
  overlaid : ∃ m n frames, frames.length = depth ∧ Overlaid m n frames s t

namespace Overlaid

variable {m n top : Nat} {frames : List Nat} {s t : Session}

/-- A variable of the function at the top. -/
theorem found (h : Overlaid m n (top :: frames) s t) (name : String) :
    s.memory.find? s.current name = t.memory.find? t.current name := by
  obtain ⟨hs, ht⟩ := h.current top rfl
  have hrecord := h.records (List.cons_ne_nil _ _) top
  unfold Memory.find?
  rw [hs, ht, hrecord]

/-- The function at the top gives a variable a value. -/
theorem assigned (h : Overlaid m n (top :: frames) s t) (name : String) (v : Value) :
    Overlaid m n (top :: frames) { s with memory := s.memory.insert s.current name v }
      { t with memory := t.memory.insert t.current name v } := by
  obtain ⟨hs, ht⟩ := h.current top rfl
  have hne : top :: frames ≠ [] := List.cons_ne_nil _ _
  refine ⟨h.holding, h.holding', h.current, fun _ i => ?_, fun _ => ?_⟩
  · show (s.memory.records.modify s.current _)[m + i]? =
      (t.memory.records.modify t.current _)[n + i]?
    rw [Array.getElem?_modify, Array.getElem?_modify, h.records hne i, hs, ht]
    simp only [Nat.add_left_cancel_iff]
  · obtain ⟨made, hsize, hsize'⟩ := h.size hne
    refine ⟨made, ?_, ?_⟩
    · exact Memory.size_insert.trans hsize
    · exact Memory.size_insert.trans hsize'

/-- All records that are there are counterparts, also if nothing is active: then from where they
end. -/
theorem settled (h : Overlaid m n frames s t) :
    ∃ m' n' made, Overlaid m' n' frames s t ∧
      (∀ i, s.memory.records[m' + i]? = t.memory.records[n' + i]?) ∧
      s.memory.records.size = m' + made ∧ t.memory.records.size = n' + made := by
  -- where no call is left, the two memories may be cut off where they end
  by_cases hframes : frames = []
  · subst hframes
    obtain ⟨under, hunder⟩ := h.holding
    obtain ⟨under', hunder'⟩ := h.holding'
    rw [stackOver_nil] at hunder hunder'
    refine ⟨s.memory.records.size, t.memory.records.size, 0,
      ⟨⟨under, ?_⟩, ⟨under', ?_⟩, ?_, ?_, ?_⟩, ?_, rfl, rfl⟩
    · rw [stackOver_nil, hunder]
    · rw [stackOver_nil, hunder']
    · intro top htop
      cases htop
    · exact fun hne => absurd rfl hne
    · exact fun hne => absurd rfl hne
    · intro i
      rw [Array.getElem?_eq_none (Nat.le_add_right _ i),
        Array.getElem?_eq_none (Nat.le_add_right _ i)]
  · obtain ⟨made, hsize, hsize'⟩ := h.size hframes
    exact ⟨m, n, made, h, h.records hframes, hsize, hsize'⟩

/-- A function is entered: the new records are counterparts, and empty. -/
theorem entered (h : Overlaid m n frames s t) (name : String) :
    ∃ m' n' frame, Overlaid m' n' (frame :: frames) (s.handOut (·.enter name))
      (t.handOut (·.enter name)) := by
  obtain ⟨m', n', made, hsettled, hrecords, hsize, hsize'⟩ := h.settled
  obtain ⟨under, hunder⟩ := hsettled.holding
  obtain ⟨under', hunder'⟩ := hsettled.holding'
  refine ⟨m', n', made, ?_⟩
  -- the new record is the one that comes after all that have been made
  simp only [handOut, Memory.enter_of_stack hunder, Memory.enter_of_stack hunder', hsize, hsize']
  refine ⟨⟨under, ?_⟩, ⟨under', ?_⟩, ?_, fun _ i => ?_, fun _ => ⟨made + 1, ?_, ?_⟩⟩
  · show Holding.stack _ = _
    rw [stackOver_cons]
  · show Holding.stack _ = _
    rw [stackOver_cons]
  · intro top htop
    cases htop
    exact ⟨rfl, rfl⟩
  · show (s.memory.records.push _)[m' + i]? = (t.memory.records.push _)[n' + i]?
    rw [Array.getElem?_push, Array.getElem?_push, hsize, hsize', hrecords i]
    simp only [Nat.add_left_cancel_iff]
  · show (s.memory.records.push _).size = _
    rw [Array.size_push, hsize]
    omega
  · show (t.memory.records.push _).size = _
    rw [Array.size_push, hsize']
    omega

/-- A function returns.  Where another is active below, its records are counterparts again. -/
theorem resumed (h : Overlaid m n (top :: frames) s t) :
    Overlaid m n frames (s.handOut Memory.restore) (t.handOut Memory.restore) := by
  have hne : top :: frames ≠ [] := List.cons_ne_nil _ _
  have hpop : ∀ (under : Array Handle) (base : Nat),
      (stackOver under base (top :: frames)).pop = stackOver under base frames := by
    intro under base
    rw [stackOver_cons, Array.pop_push]
  obtain ⟨under, hunder⟩ := h.holding
  obtain ⟨under', hunder'⟩ := h.holding'
  have hholding : (s.handOut Memory.restore).memory.holding =
      .stack (stackOver under m frames) := by
    rw [← hpop]
    exact Memory.holding_restore hunder
  have hholding' : (t.handOut Memory.restore).memory.holding =
      .stack (stackOver under' n frames) := by
    rw [← hpop]
    exact Memory.holding_restore hunder'
  cases frames with
  | nil =>
    -- nothing is active any more, so it does not matter which record is resumed
    refine ⟨⟨under, hholding⟩, ⟨under', hholding'⟩, ?_, ?_, ?_⟩
    · intro caller hcaller
      cases hcaller
    · exact fun hnil => absurd rfl hnil
    · exact fun hnil => absurd rfl hnil
  | cons caller frames =>
    have hback : ∀ (under : Array Handle) (base : Nat),
        (stackOver under base (top :: caller :: frames)).pop.back? = some (base + caller) := by
      intro under base
      rw [hpop, stackOver_cons, Array.back?_push]
    have hrestore := Memory.restore_of_back? hunder (hback under m)
    have hrestore' := Memory.restore_of_back? hunder' (hback under' n)
    refine ⟨⟨under, hholding⟩, ⟨under', hholding'⟩, ?_, fun _ i => ?_, fun _ => ?_⟩
    · intro current hcurrent
      cases hcurrent
      exact ⟨congrArg Handout.record hrestore, congrArg Handout.record hrestore'⟩
    · unfold handOut
      rw [hrestore, hrestore']
      exact h.records hne i
    · unfold handOut
      rw [hrestore, hrestore']
      exact h.size hne

end Overlaid

end Session

/-! ## What the streams show -/

namespace Output

/-- The part of the bytes that a stream with some room accepts. -/
def accepted (room : Option Nat) (bytes : ByteArray) : ByteArray :=
  match room with
  | none => bytes
  | some n => if bytes.size ≤ n then bytes else bytes.extract 0 n

/-- What an output has accepted grows by what it accepts of the bytes. -/
theorem written_write (o : Output) (bytes : ByteArray) :
    (o.write bytes).2.written = o.written ++ accepted o.room bytes := by
  obtain ⟨written, room, flushFails⟩ := o
  unfold write accepted
  cases room with
  | none => rfl
  | some n =>
    dsimp only
    split <;> rfl

/-- Streams that accept the same have the same room after it. -/
theorem Alike.write {o o' : Output} (h : o.Alike o') (bytes : ByteArray) :
    (o.write bytes).2.Alike (o'.write bytes).2 := by
  obtain ⟨written, room, flushFails⟩ := o
  obtain ⟨written', room', flushFails'⟩ := o'
  obtain ⟨rfl, rfl⟩ := h
  unfold Output.write
  cases room with
  | none => exact ⟨rfl, rfl⟩
  | some n =>
    dsimp only
    split <;> exact ⟨rfl, rfl⟩

end Output

namespace Session

/-- What two sessions have written stays the same. -/
theorem SameTraffic.wrote {w w' : ByteArray} {s t : Session} (h : SameTraffic w w' s t)
    (bytes : ByteArray) :
    SameTraffic w w' { s with output := (s.output.write bytes).2 }
      { t with output := (t.output.write bytes).2 } := by
  obtain ⟨before, hs, ht⟩ := h.written
  refine ⟨h.input, h.output.write bytes, before ++ Output.accepted s.output.room bytes, ?_, ?_⟩
  · show (s.output.write bytes).2.written = _
    rw [Output.written_write, hs, ByteArray.append_assoc]
  · show (t.output.write bytes).2.written = _
    rw [Output.written_write, ht, ByteArray.append_assoc, h.output.room]

end Session

/-! ## Two runs

Counterparts are kept by each operation; `Parallel` does the rest. -/

namespace Evaluation

open Node Session

variable {w w' : ByteArray}

/-- Two runs halt for the same reason, and have written the same. -/
def forgetful (w w' : ByteArray) : Terms Halt Halt Session Session where
  excused _ := False
  excused' _ := False
  matching e e' s t := e = e' ∧ SameTraffic w w' s t

/-- **Counterparts go the same way**; nothing has to be known of values. -/
theorem parallel_counterparts :
    Parallel (forgetful w w') Eq (fun _ => True) (Counterparts w w') where
  values := .all
  halted he h := ⟨he.eq, h.traffic⟩
  input h := h.traffic.input
  output h := h.traffic.output
  line _ _ := trivial
  -- `Overlaid` is about the memories only, but is stated of sessions: so it is taken apart and put
  -- together again
  advanced h := by
    obtain ⟨htraffic, m, n, frames, hdepth, ho⟩ := h
    have hrest := congrArg (fun input => (splitLine input).2) htraffic.input
    exact ⟨⟨hrest, htraffic.output, htraffic.written⟩, m, n, frames, hdepth,
      ho.holding, ho.holding', ho.current, ho.records, ho.size⟩
  written bytes h := by
    obtain ⟨htraffic, m, n, frames, hdepth, ho⟩ := h
    exact ⟨htraffic.wrote bytes, m, n, frames, hdepth,
      ho.holding, ho.holding', ho.current, ho.records, ho.size⟩
  logged _ h := by
    obtain ⟨htraffic, m, n, frames, hdepth, ho⟩ := h
    exact ⟨⟨htraffic.input, htraffic.output, htraffic.written⟩, m, n, frames, hdepth,
      ho.holding, ho.holding', ho.current, ho.records, ho.size⟩
  found name h := by
    -- inside a call there is a record on top
    obtain ⟨-, m, n, frames, hdepth, ho⟩ := h
    cases frames with
    | nil => cases hdepth
    | cons top frames => exact ho.found name
  stored _ _ := trivial
  assigned name _ h := by
    obtain ⟨htraffic, m, n, frames, hdepth, ho⟩ := h
    cases frames with
    | nil => cases hdepth
    | cons top frames =>
      exact ⟨⟨htraffic.input, htraffic.output, htraffic.written⟩, m, n, top :: frames, hdepth,
        ho.assigned name _⟩
  entered name h := by
    obtain ⟨htraffic, m, n, frames, hdepth, ho⟩ := h
    obtain ⟨m', n', frame, hentered⟩ := ho.entered name
    exact ⟨⟨htraffic.input, htraffic.output, htraffic.written⟩, m', n', frame :: frames,
      congrArg Nat.succ hdepth, hentered⟩
  resumed h := by
    obtain ⟨htraffic, m, n, frames, hdepth, ho⟩ := h
    cases frames with
    | nil => cases hdepth
    | cons top frames =>
      exact ⟨⟨htraffic.input, htraffic.output, htraffic.written⟩, m, n, frames,
        Nat.succ.inj hdepth, ho.resumed⟩

variable {p : Program} {s t : Session} {active active' : Array Handle}

/-- Before a run no function is active, and all records are of the past. -/
theorem counterparts_of_stacked (hs : s.Stacked active) (ht : t.Stacked active')
    (hinput : s.input = t.input) (houtput : s.output.Alike t.output) :
    Counterparts s.output.written t.output.written 0 s t := by
  have hempty : ∀ written : ByteArray, written = written ++ ByteArray.empty := by simp
  have hover : Overlaid 0 0 [] s t := by
    refine ⟨⟨active, ?_⟩, ⟨active', ?_⟩, ?_, ?_, ?_⟩
    · rw [stackOver_nil, hs.holding]
    · rw [stackOver_nil, ht.holding]
    · intro top htop
      cases htop
    · exact fun hne => absurd rfl hne
    · exact fun hne => absurd rfl hne
  exact ⟨⟨hinput, houtput, .empty, hempty _, hempty _⟩, 0, 0, [], rfl, hover⟩

/-- The runs in both sessions end together. -/
theorem kept_run (hp : p.WellFormed) (fuel : Nat) :
    Kept (forgetful w w') (Counterparts w w' 0) (run p fuel) (run p fuel) := by
  have hparallel : Parallel (forgetful w w') Eq (fun _ => True) (Counterparts w w') :=
    parallel_counterparts
  have hbelow := hparallel.level hp resembles_eq sameFunctions_eq (Or.inl (rfl : fuel = fuel))
  exact (hbelow.run hparallel hp sameFunctions_eq).kept

end Evaluation

/-! ## Programs -/

namespace Program

open Evaluation Session

/-- How a run leaves a session `s` with the stack `active`: the stack is still there, and every
record that the session had has the variables it had.  A run that succeeds leaves nothing on top of
the stack. -/
structure LeavesHistory (active : Array Handle) (s : Session) (outcome : Except Halt Value)
    (s' : Session) : Prop where
  keeps : Keeps none s s'
  stacked : ∃ more, s'.Stacked (active ++ more)
  balanced : ∀ v, outcome = .ok v → s'.Stacked active ∧ s'.memory.depth? = s.memory.depth?

/-- Old records stay as they are, and after a success the depth is what it was. -/
theorem leavesHistory_runIn {p : Program} (hp : p.WellFormed) {s : Session} {active : Array Handle}
    (hs : s.Stacked active) (fuel : Nat) :
    LeavesHistory active s (p.runIn fuel s).1 (p.runIn fuel s).2 := by
  have hrun := isolated_run hp fuel s active hs
  unfold runIn
  split
  · next v t ht =>
    have hafter := hrun.of_ok ht
    have hdepth : t.memory.depth? = s.memory.depth? := by
      unfold Memory.depth?
      rw [hafter.stacked.holding, hs.holding]
    refine ⟨hafter.keeps, ⟨#[], ?_⟩, fun _ _ => ⟨hafter.stacked, hdepth⟩⟩
    rw [Array.append_empty]
    exact hafter.stacked
  · next e t ht =>
    have hafter := hrun.of_error ht
    refine ⟨hafter.keeps, hafter.stacked, fun v hv => ?_⟩
    cases hv

/-- **With the stack a run forgets history.**  Take a program that is read, and two sessions with
stacks of any kind: whatever runs there have been in them, and however they ended.  If they have the
same input before them and will accept the same output, then runs in both come to the same value or
the same fault, write the same bytes and leave the same input; and each leaves its session as
`LeavesHistory` says. -/
theorem run_forgets_history {source : String} {p : Program} (h : parse source = .ok p) (fuel : Nat)
    {s t : Session} {active active' : Array Handle} (hs : s.Stacked active) (ht : t.Stacked active')
    (hinput : s.input = t.input) (houtput : s.output.Alike t.output) :
    (p.runIn fuel s).1 = (p.runIn fuel t).1 ∧
      SameTraffic s.output.written t.output.written (p.runIn fuel s).2 (p.runIn fuel t).2 ∧
      LeavesHistory active s (p.runIn fuel s).1 (p.runIn fuel s).2 ∧
      LeavesHistory active' t (p.runIn fuel t).1 (p.runIn fuel t).2 := by
  have hp := wellFormed_of_parse h
  -- the sessions differ in what is below, which the runs cannot reach
  have hstart := counterparts_of_stacked hs ht hinput houtput
  have hpaired := kept_run hp fuel s t hstart
  have hsame : (p.runIn fuel s).1 = (p.runIn fuel t).1 ∧
      SameTraffic s.output.written t.output.written (p.runIn fuel s).2 (p.runIn fuel t).2 := by
    rcases hpaired.cases (fun _ => id) (fun _ => id) with
      ⟨v, s', v', t', hx, hy, rfl, hafter⟩ | ⟨e, s', e', t', hx, hy, rfl, htraffic⟩
    · rw [runIn_of_ok hx, runIn_of_ok hy]
      exact ⟨rfl, hafter.traffic⟩
    · rw [runIn_of_error hx, runIn_of_error hy]
      exact ⟨rfl, htraffic⟩
  exact ⟨hsame.1, hsame.2, leavesHistory_runIn hp hs fuel, leavesHistory_runIn hp ht fuel⟩

/-- A session in which something has been written and a function that has a variable `x` has never
returned. -/
def interruptedSession : Session :=
  ⟨⟨#[.empty, Table.empty.insert "x" (.text "old")], .stack #[1]⟩, 1, [110, 10],
    ⟨⟨#[33]⟩, none, false⟩, .empty⟩

/-- It holds of a program that reads a line and looks for `x`, in a new session and in one in which
there is an `x`. -/
theorem run_forgets_history_interrupted :
    ∃ p, parse "fun main() { read(y); write(y); write(x) }" = .ok p ∧
      (Session.start .stack [110, 10] .unlimited).Stacked #[] ∧ interruptedSession.Stacked #[1] ∧
      ∀ fuel,
        (p.runIn fuel (.start .stack [110, 10] .unlimited)).1 =
          (p.runIn fuel interruptedSession).1 ∧
        SameTraffic .empty ⟨#[33]⟩ (p.runIn fuel (.start .stack [110, 10] .unlimited)).2
          (p.runIn fuel interruptedSession).2 ∧
        LeavesHistory #[] (.start .stack [110, 10] .unlimited)
          (p.runIn fuel (.start .stack [110, 10] .unlimited)).1
          (p.runIn fuel (.start .stack [110, 10] .unlimited)).2 ∧
        LeavesHistory #[1] interruptedSession (p.runIn fuel interruptedSession).1
          (p.runIn fuel interruptedSession).2 := by
  have hok : (parse "fun main() { read(y); write(y); write(x) }").isOk := by decide +kernel
  obtain ⟨p, hp⟩ := exists_of_isOk hok
  have hnew := stacked_start [110, 10] .unlimited
  have hinterrupted : interruptedSession.Stacked #[1] :=
    ⟨rfl, by simp [interruptedSession], Nat.one_lt_two⟩
  refine ⟨p, hp, hnew, hinterrupted, fun fuel => ?_⟩
  exact run_forgets_history hp fuel hnew hinterrupted rfl ⟨rfl, rfl⟩

end Program
end Scriptlet
