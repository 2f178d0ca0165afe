/-!
Streams: input that is read line by line, and output that is accepted up to a limit.

A line of the input goes up to its line break, which belongs to it; the last line may have none.  A
line that is no valid UTF-8 is passed over all the same.  What a program is given of a line is its
content, without the line break and without one carriage return before it (`lineContent_ofList`).

An output stream accepts so many bytes and no more.  What it has accepted stays written when a
later byte is refused.  Whether what has been written can be passed on is a matter of its own.
-/

namespace Scriptlet

/-! ## Lines of the input -/

/-- The byte that ends a line. -/
def lineBreak : UInt8 := 10

/-- The bytes up to and with the first line break, and those behind it. -/
def splitLine (bytes : List UInt8) : List UInt8 × List UInt8 :=
  match bytes.dropWhile (· ≠ lineBreak) with
  | [] => (bytes, [])
  | b :: rest => (bytes.takeWhile (· ≠ lineBreak) ++ [b], rest)

/-- A line is empty only at the end of the input. -/
theorem splitLine_fst_eq_nil_iff {bytes : List UInt8} :
    (splitLine bytes).1 = [] ↔ bytes = [] := by
  unfold splitLine
  split
  · exact Iff.rfl
  · next b rest hr =>
    refine ⟨fun h => by simp at h, fun h => by simp [h] at hr⟩

/-- The text of some bytes, if they are valid UTF-8. -/
def textOfBytes? (bytes : List UInt8) : Option String := String.fromUTF8? ⟨bytes.toArray⟩

/-- The text without one trailing `c`. -/
def dropTrailing (c : Char) (s : List Char) : List Char :=
  if s.getLast? = some c then s.dropLast else s

/-- A line without its line break and a carriage return before it. -/
def lineContent (line : String) : String :=
  String.ofList (dropTrailing '\r' (dropTrailing '\n' line.toList))

theorem dropTrailing_concat (c : Char) (s : List Char) : dropTrailing c (s ++ [c]) = s := by
  rw [dropTrailing, if_pos List.getLast?_concat, List.dropLast_concat]

theorem dropTrailing_of_ne {c : Char} {s : List Char} (h : s.getLast? ≠ some c) :
    dropTrailing c s = s := if_neg h

/-- **What is left of a line**, for each way in which it can end: the line break is taken off, and
then one carriage return before it.  Of two carriage returns the first stays, and a line without a
line break, the last of the input, can still lose a carriage return. -/
theorem lineContent_ofList (s : List Char) :
    lineContent (.ofList (s ++ ['\r', '\n'])) = .ofList s ∧
      lineContent (.ofList (s ++ ['\r'])) = .ofList s ∧
      (s.getLast? ≠ some '\r' → lineContent (.ofList (s ++ ['\n'])) = .ofList s) ∧
      (s.getLast? ≠ some '\r' → s.getLast? ≠ some '\n' → lineContent (.ofList s) = .ofList s) := by
  have hreturn : dropTrailing '\n' (s ++ ['\r']) = s ++ ['\r'] := by
    apply dropTrailing_of_ne
    rw [List.getLast?_concat]
    decide
  simp only [lineContent, String.toList_ofList]
  refine ⟨?_, ?_, fun h => ?_, fun h h' => ?_⟩
  · rw [List.append_cons, dropTrailing_concat, dropTrailing_concat]
  · rw [hreturn, dropTrailing_concat]
  · rw [dropTrailing_concat, dropTrailing_of_ne h]
  · rw [dropTrailing_of_ne h', dropTrailing_of_ne h]

/-! ## Output -/

/-- An output stream. -/
structure Output where
  written : ByteArray
  /-- How many more bytes are accepted; without a bound if none. -/
  room : Option Nat
  /-- Can what has been written not be passed on? -/
  flushFails : Bool

namespace Output

/-- A stream that accepts everything. -/
def unlimited : Output := ⟨.empty, none, false⟩

/-- Writes as many of the bytes as are accepted; were they all? -/
def write (o : Output) (bytes : ByteArray) : Bool × Output :=
  match o.room with
  | none => (true, { o with written := o.written ++ bytes })
  | some n =>
    if bytes.size ≤ n then
      (true, { o with written := o.written ++ bytes, room := some (n - bytes.size) })
    else (false, { o with written := o.written ++ bytes.extract 0 n, room := some 0 })

end Output
end Scriptlet
