import Scriptlet.Proofs.Separator
import Scriptlet.Proofs.Session.Requests

/-!
What a run takes from the input.

A run takes the input line by line, one line for each `read` that it comes to and that finds one.  The
lines are told apart from the way they are found: `TakesLine` says what the first line of some bytes
is, and `ReadsOff` which line goes with which request of the transcript and what it is bound to.  A
variable gets the content of its line, and what this leaves of each line, of its line break and of
carriage returns before that, is said by `lineContent_ofList`.

What is not taken has no part in the run.  If the lines taken all end in a line break, they are found
again whatever is put behind them, and the run goes the same way and leaves what was put there.  A
last line without a line break is different, and so is a run that found the input at its end: more
input would have been read.

Both are proved together, along the dialogue of the program (`KeepsTo.consumes`).  The statement about
one dialogue in one session is `Consumes`: there are lines, they are the first of the input, the reads
of the transcript go with them, and the outcome is the same with anything else behind them.  A request
that does not read leaves the lines as they are (`of_answer`, `of_refusal`), and a read puts its own
line in front of those of what follows (`of_text`), or is the last thing that happens (`of_invalid`,
`of_missing`).

The replay in the statement is for the whole run and not for each line.  It is not enough for a line
to be found again: the replies to all later requests must be the same, and they are since a session
has the same memory, output and log in both runs, and an input that differs only in what is behind.
-/

namespace Scriptlet

/-! ## Lines

Lines of bytes, told apart by the byte that ends them. -/

/-- The first line of the input, with its line break if it has one, and what is behind it. -/
inductive TakesLine : List UInt8 → List UInt8 → List UInt8 → Prop where
  | ended {body rest : List UInt8} (h : lineBreak ∉ body) :
      TakesLine (body ++ lineBreak :: rest) (body ++ [lineBreak]) rest
  | last {body : List UInt8} (h : lineBreak ∉ body) (hne : body ≠ []) : TakesLine body body []

/-- The first lines of the input, in order, and what is behind them. -/
inductive TakesLines : List UInt8 → List (List UInt8) → List UInt8 → Prop where
  | none {input : List UInt8} : TakesLines input [] input
  | cons {input line rest rest' : List UInt8} {lines : List (List UInt8)}
      (h : TakesLine input line rest) (hmore : TakesLines rest lines rest') :
      TakesLines input (line :: lines) rest'

/-- The line has a line break. -/
def EndsInBreak (line : List UInt8) : Prop := line.getLast? = some lineBreak

variable {input line rest rest' : List UInt8} {lines : List (List UInt8)}

/-- What is taken off the input is its first line. -/
theorem takesLine_splitLine (h : input ≠ []) :
    TakesLine input (splitLine input).1 (splitLine input).2 := by
  unfold splitLine
  rcases dropWhile_ne_cases lineBreak input with ⟨hdrop, hnone⟩ | ⟨rest, hdrop, hsplit⟩
  · rw [hdrop]
    exact .last hnone h
  · rw [hdrop]
    have htakes : TakesLine (input.takeWhile (· ≠ lineBreak) ++ lineBreak :: rest)
        (input.takeWhile (· ≠ lineBreak) ++ [lineBreak]) rest := .ended notMem_takeWhile_ne
    rw [← hsplit] at htakes
    exact htakes

/-- A line with a line break is found again whatever is behind it. -/
theorem TakesLine.splitLine_append (h : TakesLine input line rest) (hended : EndsInBreak line) :
    splitLine (line ++ rest') = (line, rest') := by
  cases h with
  | @ended body _ hbody =>
    obtain ⟨htake, hdrop⟩ := takeWhile_ne_append hbody rest'
    unfold splitLine
    rw [List.append_assoc, List.singleton_append, hdrop, htake]
  | last hbody hne => exact absurd (List.mem_of_getLast? hended) hbody

/-- A line and what is behind it are the input. -/
theorem TakesLine.append_eq (h : TakesLine input line rest) : line ++ rest = input := by
  cases h <;> simp

/-- Only from an input that is not at its end, and at least one byte. -/
theorem TakesLine.ne_nil (h : TakesLine input line rest) : input ≠ [] ∧ line ≠ [] := by
  cases h with
  | ended => simp
  | last hbody hne => exact ⟨hne, hne⟩

/-- The lines and what is behind them are the input. -/
theorem TakesLines.flatten_append (h : TakesLines input lines rest) :
    lines.flatten ++ rest = input := by
  induction h with
  | none => rfl
  | cons h hmore ih => rw [List.flatten_cons, List.append_assoc, ih, h.append_eq]

/-- The reads of the transcript, in order, each with the line it takes.  A line of text is bound to
the name at once; one that is no text, or that is not there, ends the run. -/
inductive ReadsOff {α : Type} (outcome : Except Halt α) :
    List Request → List (List UInt8) → Prop where
  | stop (h : exhausted outcome = false) : ReadsOff outcome [] []
  | other {q : Request} {requests : List Request} {lines : List (List UInt8)}
      (hq : q.isRead = false) (h : ReadsOff outcome requests lines) :
      ReadsOff outcome (q :: requests) lines
  | bound {node : Node} {name text : String} {line : List UInt8} {requests : List Request}
      {lines : List (List UInt8)} (htext : textOfBytes? line = some text)
      (h : ReadsOff outcome requests lines) :
      ReadsOff outcome
        (.read node name :: .assign name (.ofText (lineContent text)) :: requests) (line :: lines)
  | invalid {node : Node} {name : String} {line : List UInt8} (htext : textOfBytes? line = none)
      (h : outcome = .error (.fault (.onLine node.line Evaluation.invalidText))) :
      ReadsOff outcome [.read node name] [line]
  | missing {node : Node} {name : String}
      (h : outcome = .error (.fault (.onLine node.line (.inputExhausted name)))) :
      ReadsOff outcome [.read node name] []

/-- One line for each read, but for the one that finds none. -/
theorem ReadsOff.countP_isRead {α : Type} {outcome : Except Halt α} {requests : List Request}
    (h : ReadsOff outcome requests lines) :
    requests.countP Request.isRead = lines.length + (if exhausted outcome then 1 else 0) := by
  induction h with
  | stop h => simp [h]
  | other hq h ih => rw [List.countP_cons_of_neg (by simp [hq]), ih]
  | bound htext h ih =>
    rw [List.countP_cons_of_pos rfl, List.countP_cons_of_neg (by simp [Request.isRead]), ih,
      List.length_cons]
    omega
  | invalid htext h =>
    rw [h]
    rfl
  | missing h =>
    rw [h]
    rfl

theorem Session.eq_of_input {t : Session} (h : t.input = input) : { t with input := input } = t := by
  rw [← h]

namespace Dialogue

variable {α : Type} {p : Program} {s t : Session}

/-- Held in the session, the dialogue takes the lines from the input and depends on nothing behind
them. -/
structure Consumes (d : Dialogue α) (s : Session) (lines : List (List UInt8)) : Prop where
  takes : TakesLines s.input lines (d.outcome s).2.input
  reads : ReadsOff (d.outcome s).1 (d.transcript s) lines
  replays : exhausted (d.outcome s).1 = false → (∀ line ∈ lines, EndsInBreak line) →
    ∀ rest, d.outcome { s with input := lines.flatten ++ rest } =
      ((d.outcome s).1, { (d.outcome s).2 with input := rest })

/-- Nothing is taken where nothing is asked. -/
theorem Consumes.ended {d : Dialogue α} {result : Except Halt α}
    (h : ∀ s, d.outcome s = (result, s)) (hrequests : d.transcript s = [])
    (hnot : exhausted result = false) : d.Consumes s [] := by
  constructor
  · rw [h]
    exact .none
  · rw [h, hrequests]
    exact .stop hnot
  · intro _ _ rest
    rw [h, h]
    rfl

/-- A request that is answered in the same way whatever the input. -/
theorem Consumes.of_answer {q : Request} {next : q.Reply → Dialogue α} {reply : q.Reply}
    (hq : q.isRead = false) (hinput : t.input = s.input)
    (hanswer : ∀ input, q.answer { s with input := input } = .ok reply { t with input := input })
    (h : (next reply).Consumes t lines) : (ask q next).Consumes s lines := by
  have hhere : q.answer s = .ok reply t := by
    have hsame := hanswer s.input
    rwa [Session.eq_of_input hinput] at hsame
  constructor
  · rw [outcome_of_answer hhere, ← hinput]
    exact h.takes
  · rw [outcome_of_answer hhere, transcript_of_answer hhere]
    exact .other hq h.reads
  · rw [outcome_of_answer hhere]
    intro hnot hended rest
    rw [outcome_of_answer (hanswer _)]
    exact h.replays hnot hended rest

/-- A request that is refused in the same way whatever the input. -/
theorem Consumes.of_refusal {q : Request} {next : q.Reply → Dialogue α} {e : Halt}
    (hq : q.isRead = false) (hinput : t.input = s.input) (hnot : e.exhausted = false)
    (hanswer : ∀ input, q.answer { s with input := input } = .error e { t with input := input }) :
    (ask q next).Consumes s [] := by
  have hhere : q.answer s = .error e t := by
    have hsame := hanswer s.input
    rwa [Session.eq_of_input hinput] at hsame
  constructor
  · rw [outcome_of_refusal hhere, ← hinput]
    exact .none
  · rw [outcome_of_refusal hhere, transcript_of_refusal hhere]
    exact .other hq (.stop hnot)
  · rw [outcome_of_refusal hhere]
    intro _ _ rest
    rw [outcome_of_refusal (hanswer _)]
    rfl

/-- A line that is read. -/
theorem Consumes.of_text {node : Node} {name text : String} {next : String → Dialogue α}
    (hinput : s.input ≠ []) (htext : textOfBytes? (splitLine s.input).1 = some text)
    (h : (next (lineContent text)).Consumes
      { s with
        memory := s.memory.insert s.current name (.ofText (lineContent text))
        input := (splitLine s.input).2 } lines) :
    (ask (.read node name) fun text =>
      ask (.assign name (.ofText text)) fun _ => next text).Consumes s
        ((splitLine s.input).1 :: lines) := by
  have hline := takesLine_splitLine hinput
  have hread : (Request.read node name).answer s =
      .ok (lineContent text) { s with input := (splitLine s.input).2 } :=
    Request.answer_read_of_text rfl hline.ne_nil.2 htext
  constructor
  · rw [outcome_of_answer hread]
    exact .cons hline h.takes
  · rw [outcome_of_answer hread, transcript_of_answer hread]
    exact .bound htext h.reads
  · rw [outcome_of_answer hread]
    intro hnot hended rest
    obtain ⟨hfirst, hothers⟩ := List.forall_mem_cons.1 hended
    -- the same line is found in front of the other input
    have hagain : splitLine (((splitLine s.input).1 :: lines).flatten ++ rest) =
        ((splitLine s.input).1, lines.flatten ++ rest) := by
      rw [List.flatten_cons, List.append_assoc]
      exact hline.splitLine_append hfirst
    rw [outcome_of_answer (Request.answer_read_of_text hagain hline.ne_nil.2 htext)]
    exact h.replays hnot hothers rest

/-- A line that is no text is taken, and found again to be none. -/
theorem Consumes.of_invalid {node : Node} {name : String} {next : String → Dialogue α}
    (hinput : s.input ≠ []) (htext : textOfBytes? (splitLine s.input).1 = none) :
    (ask (.read node name) next).Consumes s [(splitLine s.input).1] := by
  have hline := takesLine_splitLine hinput
  have hread : (Request.read node name).answer s =
      .error (.fault (.onLine node.line Evaluation.invalidText))
        { s with input := (splitLine s.input).2 } :=
    Request.answer_read_of_none rfl hline.ne_nil.2 htext
  constructor
  · rw [outcome_of_refusal hread]
    exact .cons hline .none
  · rw [outcome_of_refusal hread, transcript_of_refusal hread]
    exact .invalid htext rfl
  · rw [outcome_of_refusal hread]
    intro hnot hended rest
    have hagain : splitLine ([(splitLine s.input).1].flatten ++ rest) =
        ((splitLine s.input).1, rest) := by
      rw [List.flatten_singleton]
      exact hline.splitLine_append (List.forall_mem_singleton.1 hended)
    rw [outcome_of_refusal (Request.answer_read_of_none hagain hline.ne_nil.2 htext)]

/-- A line that is missing. -/
theorem Consumes.of_missing {node : Node} {name : String} {next : String → Dialogue α}
    (hinput : s.input = []) : (ask (.read node name) next).Consumes s [] := by
  have hread : (Request.read node name).answer s =
      .error (.fault (.onLine node.line (.inputExhausted name))) s :=
    Request.answer_read_of_nil hinput
  constructor
  · rw [outcome_of_refusal hread]
    exact .none
  · rw [outcome_of_refusal hread, transcript_of_refusal hread]
    exact .missing rfl
  · rw [outcome_of_refusal hread]
    intro hnot
    cases hnot

/-- **What a dialogue takes from the input**, in any session. -/
theorem KeepsTo.consumes {d : Dialogue α} (h : d.KeepsTo p) (s : Session) :
    ∃ lines, d.Consumes s lines := by
  induction h generalizing s with
  | done => exact ⟨[], .ended (fun _ => rfl) rfl rfl⟩
  | halt h hnot => exact ⟨[], .ended (fun _ => rfl) rfl hnot⟩
  -- no line, whatever else is asked
  | silent hq hasked hnext ih =>
    obtain ⟨reply, t, -, hinput, -, hanswer, -⟩ := Request.exists_answer_of_silent hq s
    obtain ⟨lines, hlines⟩ := ih reply t
    exact ⟨lines, .of_answer (Request.isRead_of_silent hq) hinput hanswer hlines⟩
  -- the answer depends on the output alone
  | @write node text next hasked hnext ih =>
    rcases hwrite : s.output.write (text.push '\n').toUTF8 with ⟨accepted, output⟩
    cases accepted with
    | true =>
      obtain ⟨lines, hlines⟩ := ih { s with output := output }
      refine ⟨lines, .of_answer (t := { s with output := output }) rfl rfl ?_ hlines⟩
      intro input
      exact Request.answer_write_of_accepted hwrite
    | false =>
      refine ⟨[], .of_refusal (t := { s with output := output }) rfl rfl ?_ fun input =>
        Request.answer_write_of_refused hwrite⟩
      rfl
  -- the line is missing, or not a text, or it is taken
  | @read node name next hasked hnext ih =>
    by_cases hinput : s.input = []
    · exact ⟨[], .of_missing hinput⟩
    · cases htext : textOfBytes? (splitLine s.input).1 with
      | none => exact ⟨[(splitLine s.input).1], .of_invalid hinput htext⟩
      | some text =>
        obtain ⟨lines, hlines⟩ := ih (lineContent text) { s with
          memory := s.memory.insert s.current name (.ofText (lineContent text))
          input := (splitLine s.input).2 }
        exact ⟨(splitLine s.input).1 :: lines, .of_text hinput htext hlines⟩
  | flush hasked hnext ih =>
    cases hflush : s.output.flushFails with
    | false =>
      obtain ⟨lines, hlines⟩ := ih s
      refine ⟨lines, .of_answer rfl rfl ?_ hlines⟩
      intro input
      exact Request.answer_flush_of_not hflush
    | true =>
      refine ⟨[], .of_refusal (t := s) rfl rfl ?_ fun input => Request.answer_flush_of hflush⟩
      rfl

end Dialogue

namespace Program

open Dialogue

end Program
end Scriptlet
