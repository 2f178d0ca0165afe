import Scriptlet.Proofs.Session.Consumption

/-!
What a failing output stream changes.

Two runs from one session are compared, one with a stream that accepts everything and one with a
stream that has room for so many bytes.  They make the same requests and get the same replies as long
as there is room.  The first line that does not fit is cut off where the room ends, wherever in the
line that is, and the run halts at the node that writes it; nothing is asked after that.

The comparison needs no end of the first run.  It holds with any fuel, so it also holds of a run that
goes on for ever and has written more than there is room for.

`Truncates` says both halves of it at once, for a dialogue and the bytes `o` that it writes in a
session without a limit: for every room there is either the same run, or a run that is cut off
(`CutOff`), with exactly as many bytes written as there was room.  It is built up along the dialogue.
A request that is not for output has the same reply with any room.  A line that is written adds its
bytes to those of what follows, and for each room it is decided there whether the line fits: if it
does, the rest of the dialogue has so much less room, and if it does not, the line is the one that is
cut.

What has been written when the run halts is the first part of what would have been written.  A limit
in the middle of a character cuts the character.
-/

namespace Scriptlet

/-- The session with a stream that is to accept so many bytes more, and that can be flushed. -/
def Session.withRoom (s : Session) (room : Option Nat) : Session :=
  { s with output := ⟨s.output.written, room, false⟩ }

/-- The session after these bytes have been written. -/
def Session.wrote (s : Session) (bytes : ByteArray) : Session :=
  { s with output := { s.output with written := s.output.written ++ bytes } }

/-- What is cut off a first part is cut off the whole. -/
theorem extract_append_of_le {bytes more : ByteArray} {n : Nat} (h : n ≤ bytes.size) :
    (bytes ++ more).extract 0 n = bytes.extract 0 n := by
  have hnone : more.extract (0 - bytes.size) (n - bytes.size) = .empty := by
    rw [ByteArray.extract_eq_empty_iff]
    omega
  rw [ByteArray.extract_append, hnone, ByteArray.append_empty]

/-- A first part that fits is kept as a whole. -/
theorem extract_append_of_ge {bytes more : ByteArray} {n : Nat} (h : bytes.size ≤ n) :
    (bytes ++ more).extract 0 n = bytes ++ more.extract 0 (n - bytes.size) := by
  have hall : bytes.extract 0 n = bytes := by
    rw [← Nat.max_eq_left h]
    exact ByteArray.extract_zero_max_size
  rw [ByteArray.extract_append, hall, Nat.zero_sub]

namespace Dialogue

variable {α : Type} {p : Program} {s t : Session} {n : Nat} {o : ByteArray}

/-- With room for `n` bytes the dialogue is cut off at the request of `node` to write `text`: up to
there it is the same as without a limit, and its output is the first `n` of the bytes `o`. -/
structure CutOff (d : Dialogue α) (s : Session) (n : Nat) (o : ByteArray) (before : List Request)
    (node : Node) (text : String) (after : List Request) : Prop where
  unlimited : d.transcript (s.withRoom none) = before ++ .write node text :: after
  limited : d.transcript (s.withRoom (some n)) = before ++ [.write node text]
  outcome : (d.outcome (s.withRoom (some n))).1 =
    .error (.fault (.onLine node.line Evaluation.brokenPipe))
  output : (d.outcome (s.withRoom (some n))).2.output =
    ⟨s.output.written ++ o.extract 0 n, some 0, false⟩

/-- The dialogue writes the bytes `o`.  With room for them it is the same, with less it is cut off. -/
structure Truncates (d : Dialogue α) (s : Session) (o : ByteArray) : Prop where
  written : (d.outcome (s.withRoom none)).2.output = ⟨s.output.written ++ o, none, false⟩
  fits : ∀ n, o.size ≤ n →
    d.transcript (s.withRoom (some n)) = d.transcript (s.withRoom none) ∧
      d.outcome (s.withRoom (some n)) = ((d.outcome (s.withRoom none)).1,
        (d.outcome (s.withRoom none)).2.withRoom (some (n - o.size)))
  cut : ∀ n, n < o.size → ∃ before node text after, d.CutOff s n o before node text after

/-- One more request at the beginning. -/
theorem CutOff.of_answer {q : Request} {next : q.Reply → Dialogue α} {reply : q.Reply} {m : Nat}
    {o' : ByteArray} {before after : List Request} {node : Node} {text : String}
    (hunlimited : q.answer (s.withRoom none) = .ok reply (t.withRoom none))
    (hlimited : q.answer (s.withRoom (some n)) = .ok reply (t.withRoom (some m)))
    (houtput : t.output.written ++ o'.extract 0 m = s.output.written ++ o.extract 0 n)
    (h : (next reply).CutOff t m o' before node text after) :
    (ask q next).CutOff s n o (q :: before) node text after := by
  constructor
  · rw [transcript_of_answer hunlimited, h.unlimited]
    rfl
  · rw [transcript_of_answer hlimited, h.limited]
    rfl
  · rw [outcome_of_answer hlimited, h.outcome]
  · rw [outcome_of_answer hlimited, h.output, houtput]

/-- Where nothing is asked nothing is written. -/
theorem Truncates.ended {d : Dialogue α} {result : Except Halt α} (h : ∀ s, d.outcome s = (result, s))
    (hrequests : ∀ s, d.transcript s = []) : d.Truncates s .empty := by
  constructor
  · rw [h, ByteArray.append_empty]
    rfl
  · intro n _
    rw [h, h, hrequests, hrequests]
    exact ⟨rfl, rfl⟩
  · intro n hn
    exact absurd hn (Nat.not_lt_zero n)

/-- A request that is answered in the same way with any room. -/
theorem Truncates.of_answer {q : Request} {next : q.Reply → Dialogue α} {reply : q.Reply}
    (hwritten : t.output.written = s.output.written)
    (hanswer : ∀ room, q.answer (s.withRoom room) = .ok reply (t.withRoom room))
    (h : (next reply).Truncates t o) : (ask q next).Truncates s o := by
  constructor
  · rw [outcome_of_answer (hanswer _), h.written, hwritten]
  · intro n hn
    obtain ⟨htranscript, houtcome⟩ := h.fits n hn
    rw [transcript_of_answer (hanswer _), transcript_of_answer (hanswer _),
      outcome_of_answer (hanswer _), outcome_of_answer (hanswer _), htranscript, houtcome]
    exact ⟨rfl, rfl⟩
  · intro n hn
    obtain ⟨before, node, text, after, hcut⟩ := h.cut n hn
    refine ⟨q :: before, node, text, after, hcut.of_answer (hanswer _) (hanswer _) ?_⟩
    rw [hwritten]

/-- A request that is refused in the same way with any room. -/
theorem Truncates.of_refusal {q : Request} {next : q.Reply → Dialogue α} {e : Halt}
    (hwritten : t.output.written = s.output.written)
    (hanswer : ∀ room, q.answer (s.withRoom room) = .error e (t.withRoom room)) :
    (ask q next).Truncates s .empty := by
  constructor
  · rw [outcome_of_refusal (hanswer _), ByteArray.append_empty, ← hwritten]
    rfl
  · intro n _
    rw [transcript_of_refusal (hanswer _), transcript_of_refusal (hanswer _),
      outcome_of_refusal (hanswer _), outcome_of_refusal (hanswer _)]
    exact ⟨rfl, rfl⟩
  · intro n hn
    exact absurd hn (Nat.not_lt_zero n)

/-- A line that is written. -/
theorem Truncates.of_write {node : Node} {text : String} {next : Unit → Dialogue α}
    (h : (next ()).Truncates (s.wrote (text.push '\n').toUTF8) o) :
    (ask (.write node text) next).Truncates s ((text.push '\n').toUTF8 ++ o) := by
  generalize hbytes : (text.push '\n').toUTF8 = bytes at h ⊢
  have hunlimited : (Request.write node text).answer (s.withRoom none) =
      .ok () ((s.wrote bytes).withRoom none) := by
    rw [← hbytes]
    exact Request.answer_write_of_accepted rfl
  have hlimited : ∀ {n}, bytes.size ≤ n → (Request.write node text).answer (s.withRoom (some n)) =
      .ok () ((s.wrote bytes).withRoom (some (n - bytes.size))) := by
    intro n hn
    refine Request.answer_write_of_accepted ?_
    rw [hbytes]
    exact if_pos hn
  constructor
  · rw [outcome_of_answer hunlimited, h.written, ← ByteArray.append_assoc]
    rfl
  · intro n hn
    rw [ByteArray.size_append] at hn ⊢
    obtain ⟨htranscript, houtcome⟩ := h.fits (n - bytes.size) (by omega)
    have hfirst : bytes.size ≤ n := by omega
    rw [transcript_of_answer hunlimited, transcript_of_answer (hlimited hfirst),
      outcome_of_answer hunlimited, outcome_of_answer (hlimited hfirst), htranscript, houtcome,
      Nat.sub_sub]
    exact ⟨rfl, rfl⟩
  · intro n hn
    rw [ByteArray.size_append] at hn
    by_cases hfirst : bytes.size ≤ n
    · -- the line fits, and the limit is further on
      obtain ⟨before, node', text', after, hcut⟩ := h.cut (n - bytes.size) (by omega)
      refine ⟨.write node text :: before, node', text', after,
        hcut.of_answer hunlimited (hlimited hfirst) ?_⟩
      rw [extract_append_of_ge hfirst, ← ByteArray.append_assoc]
      rfl
    · -- the limit is within the line
      have hrefused : (Request.write node text).answer (s.withRoom (some n)) =
          .error (.fault (.onLine node.line Evaluation.brokenPipe))
            ((s.wrote (bytes.extract 0 n)).withRoom (some 0)) := by
        refine Request.answer_write_of_refused ?_
        rw [hbytes]
        exact if_neg hfirst
      refine ⟨[], node, text, (next ()).transcript ((s.wrote bytes).withRoom none), ?_, ?_, ?_, ?_⟩
      · rw [transcript_of_answer hunlimited]
        rfl
      · rw [transcript_of_refusal hrefused]
        rfl
      · rw [outcome_of_refusal hrefused]
      · rw [outcome_of_refusal hrefused, extract_append_of_le (by omega)]
        rfl

/-- **What a limit of the output changes**, in any session. -/
theorem KeepsTo.truncates {d : Dialogue α} (h : d.KeepsTo p) (s : Session) :
    ∃ o, d.Truncates s o := by
  induction h generalizing s with
  | done => exact ⟨.empty, .ended (fun _ => rfl) fun _ => rfl⟩
  | halt => exact ⟨.empty, .ended (fun _ => rfl) fun _ => rfl⟩
  | silent hq hasked hnext ih =>
    obtain ⟨reply, t, -, -, houtput, -, hanswer⟩ := Request.exists_answer_of_silent hq s
    obtain ⟨o, ho⟩ := ih reply t
    refine ⟨o, .of_answer (congrArg Output.written houtput) (fun room => ?_) ho⟩
    -- only the output differs from the session without a limit, and a silent request leaves it
    -- alone
    have hroom : t.withRoom room = { t with output := ⟨s.output.written, room, false⟩ } := by
      rw [Session.withRoom, houtput]
    rw [hroom]
    exact hanswer _
  -- the only request that is answered differently
  | @write node text next hasked hnext ih =>
    obtain ⟨o, ho⟩ := ih (s.wrote (text.push '\n').toUTF8)
    exact ⟨(text.push '\n').toUTF8 ++ o, ho.of_write⟩
  | @read node name next hasked hnext ih =>
    by_cases hinput : s.input = []
    · -- what is missing or not a text is missing with every limit
      have hanswer : ∀ room, (Request.read node name).answer (s.withRoom room) =
          .error (.fault (.onLine node.line (.inputExhausted name))) (s.withRoom room) :=
        fun room => Request.answer_read_of_nil hinput
      exact ⟨.empty, .of_refusal rfl hanswer⟩
    · have hne : (splitLine s.input).1 ≠ [] := fun hnil => hinput (splitLine_fst_eq_nil_iff.1 hnil)
      cases htext : textOfBytes? (splitLine s.input).1 with
      | none =>
        let read : Session := { s with input := (splitLine s.input).2 }
        have hanswer : ∀ room, (Request.read node name).answer (s.withRoom room) =
            .error (.fault (.onLine node.line Evaluation.invalidText)) (read.withRoom room) :=
          fun room => Request.answer_read_of_none rfl hne htext
        exact ⟨.empty, .of_refusal (t := read) rfl hanswer⟩
      | some text =>
        let read : Session := { s with input := (splitLine s.input).2 }
        let assigned : Session :=
          { read with memory := s.memory.insert s.current name (.ofText (lineContent text)) }
        have hread : ∀ room, (Request.read node name).answer (s.withRoom room) =
            .ok (lineContent text) (read.withRoom room) :=
          fun room => Request.answer_read_of_text rfl hne htext
        have hassign : ∀ room, (Request.assign name (.ofText (lineContent text))).answer
            (read.withRoom room) = .ok () (assigned.withRoom room) := fun room => rfl
        obtain ⟨o, ho⟩ := ih (lineContent text) assigned
        refine ⟨o, .of_answer (t := read) rfl hread ?_⟩
        exact .of_answer (t := assigned) rfl hassign ho
  | flush hasked hnext ih =>
    obtain ⟨o, ho⟩ := ih s
    exact ⟨o, ho.of_answer rfl fun room => Request.answer_flush_of_not rfl⟩

end Dialogue

namespace Program

open Dialogue

/-- **A failing output stream only truncates.**  Without a limit the program writes the bytes `o`. 
With room for them it comes to the same and writes the same.  With room for fewer it does the same
up to a line that no longer fits; there it fails on the line of the node that writes, its output is
as much of `o` as there was room for, and it asks for nothing after that: it has visited no further
node, and taken from the input only the lines it had read before. -/
theorem truncation (p : Program) (fuel : Nat) (s : Session) :
    ∃ o, (p.runIn fuel (s.withRoom none)).2.output = ⟨s.output.written ++ o, none, false⟩ ∧
      (∀ n, o.size ≤ n →
        p.transcript fuel (s.withRoom (some n)) = p.transcript fuel (s.withRoom none) ∧
        p.runIn fuel (s.withRoom (some n)) = ((p.runIn fuel (s.withRoom none)).1,
          (p.runIn fuel (s.withRoom none)).2.withRoom (some (n - o.size)))) ∧
      ∀ n, n < o.size → ∃ before node text after lines,
        p.transcript fuel (s.withRoom none) = before ++ .write node text :: after ∧
        p.transcript fuel (s.withRoom (some n)) = before ++ [.write node text] ∧
        node ∈ p.root.nodes ∧ node.label = .write ∧
        (p.runIn fuel (s.withRoom (some n))).1 =
          .error (.fault (.onLine node.line Evaluation.brokenPipe)) ∧
        (p.runIn fuel (s.withRoom (some n))).2.output =
          ⟨s.output.written ++ o.extract 0 n, some 0, false⟩ ∧
        TakesLines s.input lines (p.runIn fuel (s.withRoom (some n))).2.input ∧
        lines.length = before.countP Request.isRead := by
  have hkeeps := keepsTo_run (p := p) fuel
  obtain ⟨o, hwritten, hfits, hcut⟩ := hkeeps.truncates s
  simp only [outcome_run] at hwritten hfits
  refine ⟨o, hwritten, hfits, ?_⟩
  -- the node that is cut off at is one that was asked for, and the lines are those of the requests
  -- before it
  intro n hn
  obtain ⟨before, node, text, after, hunlimited, hlimited, houtcome, houtput⟩ := hcut n hn
  obtain ⟨lines, htakes, hreads, -⟩ := hkeeps.consumes (s.withRoom (some n))
  have hasked : (Request.write node text).AskedIn p := by
    refine hkeeps.askedIn (s := s.withRoom (some n)) ?_
    rw [hlimited]
    exact List.mem_append_right _ List.mem_cons_self
  have hcount : lines.length = before.countP Request.isRead := by
    have hall := hreads.countP_isRead
    rw [houtcome, hlimited, List.countP_append] at hall
    exact hall.symm
  simp only [outcome_run] at houtcome houtput htakes
  exact ⟨before, node, text, after, lines, hunlimited, hlimited, hasked.1, hasked.2, houtcome,
    houtput, htakes, hcount⟩

end Program
end Scriptlet
