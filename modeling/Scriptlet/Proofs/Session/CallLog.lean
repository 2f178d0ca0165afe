import Scriptlet.Proofs.Session.Bracket
import Scriptlet.Proofs.Session.Judgement
import Scriptlet.Proofs.Session.Requests

/-!
The log of calls with the stack discipline.

That the reports of calls match is a property of whole runs.  A call reports in four places: it is the
evaluation of a call that says what is called, the memory that says what is entered, the statement
that returns that hands the record back and says what is returned, and nested calls stand in
arguments, in operands, in conditions and in the operand of `return` itself, before the record is
given back.

`Tells` says of a dialogue which events it adds to the log beside the marks of its calls.  Expressions
make whole calls one after another and leave the stack as high as it was (`Settles`).  So do
statements, but one that returns makes the stack lower and reports it last (`Closes`).  This is a
judgement (`bracketing`), so it holds of the whole program, and a call that is made with it is one
bracket (`tells_frame`).

The marks carry what a bracket is to be about.  An event says that `f` is called with some arguments,
and another that some value is returned, but whether they belong together cannot be told from the
events alone.  The marks of a run are set by the evaluator at the calls themselves, so a bracket whose
function, arguments and value are those of the marks between its ends says of the log what really went
on.  The two lists are built up side by side: `Tells.bind` puts the marks of two dialogues one after
the other, and their events too.

A run that fails leaves brackets open, and the stack has grown by as many records.  What a halt leaves
is `Halted`: some calls that are over, and then perhaps one that has begun and in which the same is
the case again.  Every such log is the first part of the log of a whole call.  There is one exception
to all this, which the statement about a run has to mention.  The output is passed on after the entry
point has returned, and that can fail, when every bracket is closed.

What is shown of the events is carried over to the words in which they are logged.  `Bracketed` is
stated for any vocabulary and kept by translations, so the text of the log is bracketed as well, with
the displayed arguments, depths and values in it.

Main statement: `callLog_of_parse`.  The log of a run is bracketed as it is and also as it is read, in
the messages of the debugging level.
-/

namespace Scriptlet

/-- A request that reports nothing. -/
def Request.Plain : Request → Prop
  | report _ => False
  | enter _ => False
  | resume => False
  | _ => True

/-- The marks of calls among some requests. -/
def calls (requests : List Request) : List Mark :=
  requests.filterMap fun
    | .mark (.call name arguments) => some (.call name arguments)
    | .mark (.yield v) => some (.yield v)
    | _ => none

/-- The marks of calls are collected request by request. -/
theorem calls_append {requests more : List Request} :
    calls (requests ++ more) = calls requests ++ calls more := List.filterMap_append

variable {n k : Nat} {name : String} {arguments : List Value} {v : Value} {marks marks' : List Mark}
  {events events' : List Event}

/-! ## The depth of the stack

Handing out a record and handing one back report the depth they come to. -/

namespace Memory

variable {m : Memory}

/-- A record is pushed, and the depth that is reported counts it. -/
theorem depth?_enter (name : String) (h : m.depth? = some n) :
    (m.enter name).memory.depth? = some (n + 1) ∧
      (m.enter name).events = [.entering name (n + 1)] := by
  obtain ⟨records, holding⟩ := m
  cases holding with
  | shared record => cases h
  | stack active =>
    cases h
    exact ⟨congrArg some (Array.size_push _), rfl⟩

/-- A record is popped, and the depth that is reported is what is left.  Where nothing is left to
resume a record is made, but the stack stays empty. -/
theorem depth?_restore (h : m.depth? = some n) :
    m.restore.memory.depth? = some (n - 1) ∧ m.restore.events = [.resuming (n - 1)] := by
  obtain ⟨records, holding⟩ := m
  cases holding with
  | shared record => cases h
  | stack active =>
    cases h
    have hsize : active.pop.size = active.size - 1 := Array.size_pop
    rw [← hsize]
    cases hback : active.pop.back? with
    | some record =>
      simp only [restore, hback]
      exact ⟨rfl, trivial⟩
    | none =>
      simp only [restore, hback]
      exact ⟨rfl, trivial⟩

end Memory

namespace Dialogue

open Node

variable {α β : Type}

/-! ## What a dialogue tells

The rules for putting dialogues together, with their marks and their events. -/

/-- Held in the session, the dialogue adds events to the log; with these and with the marks of its
calls it ends with `ok` or halts with `halt`. -/
def Tells (d : Dialogue α) (s : Session) (ok : α → Session → List Mark → List Event → Prop)
    (halt : Halt → Session → List Mark → List Event → Prop) : Prop :=
  ∃ events, (d.outcome s).2.log.toList = s.log.toList ++ events ∧
    match (d.outcome s).1 with
    | .ok a => ok a (d.outcome s).2 (calls (d.transcript s)) events
    | .error e => halt e (d.outcome s).2 (calls (d.transcript s)) events

section Rules

variable {d : Dialogue α} {s : Session} {ok : α → Session → List Mark → List Event → Prop}
  {halt : Halt → Session → List Mark → List Event → Prop}

/-- A dialogue that asks nothing tells nothing. -/
theorem Tells.done {a : α} (h : ok a s [] []) : Tells (done a) s ok halt :=
  ⟨[], (List.append_nil _).symm, h⟩

/-- Nor does a halt. -/
theorem Tells.halted {e : Halt} (h : halt e s [] []) : Tells (Dialogue.halt e) s ok halt :=
  ⟨[], (List.append_nil _).symm, h⟩

/-- What has been told may be read in a weaker way, given how the dialogue has ended. -/
theorem Tells.mono {ok' : α → Session → List Mark → List Event → Prop}
    {halt' : Halt → Session → List Mark → List Event → Prop} (hd : Tells d s ok halt)
    (hok : ∀ a t marks events, d.outcome s = (.ok a, t) → ok a t marks events →
      ok' a t marks events)
    (hhalt : ∀ e t marks events, halt e t marks events → halt' e t marks events) :
    Tells d s ok' halt' := by
  obtain ⟨events, hlog, htold⟩ := hd
  refine ⟨events, hlog, ?_⟩
  rcases houtcome : d.outcome s with ⟨result, t⟩
  rw [houtcome] at htold
  cases result with
  | ok a => exact hok a t _ _ houtcome htold
  | error e => exact hhalt e t _ _ htold

/-- One dialogue after another: marks and events of the first come first. -/
theorem Tells.bind {f : α → Dialogue β} {ok' : β → Session → List Mark → List Event → Prop}
    {halt' : Halt → Session → List Mark → List Event → Prop} (hd : Tells d s ok halt)
    (hf : ∀ a t marks events, d.outcome s = (.ok a, t) → ok a t marks events →
      Tells (f a) t (fun b u marks' events' => ok' b u (marks ++ marks') (events ++ events'))
        fun e u marks' events' => halt' e u (marks ++ marks') (events ++ events'))
    (hhalt : ∀ e t marks events, halt e t marks events → halt' e t marks events) :
    Tells (d >>= f) s ok' halt' := by
  obtain ⟨events, hlog, htold⟩ := hd
  rcases houtcome : d.outcome s with ⟨result, t⟩
  rw [houtcome] at hlog htold
  cases result with
  | ok a =>
    obtain ⟨events', hlog', htold'⟩ := hf a t _ _ houtcome htold
    refine ⟨events ++ events', ?_, ?_⟩
    · rw [outcome_bind_of_ok houtcome, hlog', hlog, List.append_assoc]
    · rw [outcome_bind_of_ok houtcome, transcript_bind_of_ok houtcome, calls_append]
      exact htold'
  | error e =>
    refine ⟨events, ?_, ?_⟩
    · rw [outcome_bind_of_error houtcome, hlog]
    · rw [outcome_bind_of_error houtcome, transcript_bind_of_error houtcome]
      exact hhalt e t _ _ htold

end Rules

/-! ### Requests

What each request adds to the log. -/

variable {s : Session}

/-- The transcript of one request is that request, answered or refused. -/
theorem transcript_request {q : Request} : (request q).transcript s = [q] := by
  cases hanswer : q.answer s with
  | ok reply t => exact transcript_of_answer hanswer
  | error e t => exact transcript_of_refusal hanswer

/-- A request that reports nothing leaves the stack and the log as they are, also if it is refused. -/
theorem outcome_request_plain {q : Request} (hq : q.Plain) :
    ((request q).outcome s).2.memory.depth? = s.memory.depth? ∧
      ((request q).outcome s).2.log = s.log := by
  -- refused or not, the answer touches the output or the input, and binds a variable at most
  cases q with
  | report e => cases hq
  | enter function => cases hq
  | resume => cases hq
  | write node text =>
    rcases hwrite : s.output.write (text.push '\n').toUTF8 with ⟨accepted, output⟩
    cases accepted with
    | true =>
      rw [request, outcome_of_answer (Request.answer_write_of_accepted hwrite)]
      exact ⟨rfl, rfl⟩
    | false =>
      rw [request, outcome_of_refusal (Request.answer_write_of_refused hwrite)]
      exact ⟨rfl, rfl⟩
  | read node name =>
    by_cases hinput : s.input = []
    · rw [request, outcome_of_refusal (Request.answer_read_of_nil hinput)]
      exact ⟨rfl, rfl⟩
    · have hne : (splitLine s.input).1 ≠ [] := fun hnil => hinput (splitLine_fst_eq_nil_iff.1 hnil)
      cases htext : textOfBytes? (splitLine s.input).1 with
      | none =>
        rw [request, outcome_of_refusal (Request.answer_read_of_none rfl hne htext)]
        exact ⟨rfl, rfl⟩
      | some text =>
        rw [request, outcome_of_answer (Request.answer_read_of_text rfl hne htext)]
        exact ⟨rfl, rfl⟩
  | flush line =>
    cases hflush : s.output.flushFails with
    | false =>
      rw [request, outcome_of_answer (Request.answer_flush_of_not hflush)]
      exact ⟨rfl, rfl⟩
    | true =>
      rw [request, outcome_of_refusal (Request.answer_flush_of hflush)]
      exact ⟨rfl, rfl⟩
  | _ => exact ⟨rfl, rfl⟩

/-- A request that reports nothing contributes its mark, if it is one, and leaves the depth. -/
theorem tells_plain {q : Request} (hq : q.Plain) :
    Tells (request q) s
      (fun _ t marks events =>
        t.memory.depth? = s.memory.depth? ∧ marks = calls [q] ∧ events = [])
      fun _ t marks events =>
        t.memory.depth? = s.memory.depth? ∧ marks = calls [q] ∧ events = [] := by
  obtain ⟨hdepth, hlog⟩ := outcome_request_plain (s := s) hq
  refine ⟨[], ?_, ?_⟩
  · rw [hlog, List.append_nil]
  · rw [transcript_request]
    split <;> exact ⟨hdepth, rfl, rfl⟩

/-- A mark contributes itself and leaves the session. -/
theorem tells_mark {m : Mark} {halt : Halt → Session → List Mark → List Event → Prop} :
    Tells (mark m) s
      (fun _ t marks events => t = s ∧ marks = calls [.mark m] ∧ events = []) halt :=
  ⟨[], (List.append_nil _).symm, rfl, rfl, rfl⟩

/-- A report contributes its event and leaves the memory. -/
theorem tells_report {e : Event} {halt : Halt → Session → List Mark → List Event → Prop} :
    Tells (report e) s
      (fun _ t marks events => t.memory = s.memory ∧ marks = [] ∧ events = [e]) halt := by
  refine ⟨[e], ?_, rfl, rfl, rfl⟩
  exact Log.toList_add s.log e

/-- Passing on the output changes nothing, also where it fails. -/
theorem tells_flush {line : Nat} :
    Tells (flush line) s (fun _ t marks events => t = s ∧ marks = [] ∧ events = [])
      fun e t marks events => t = s ∧ marks = [] ∧ events = [] ∧ s.output.flushFails = true ∧
        e = .fault (.onLine line Evaluation.brokenPipe) := by
  have hmarks : calls ((flush line).transcript s) = [] := congrArg calls transcript_request
  unfold Tells
  rw [hmarks]
  cases hflush : s.output.flushFails with
  | false =>
    have houtcome : (flush line).outcome s = (.ok (), s) :=
      outcome_of_answer (Request.answer_flush_of_not hflush)
    rw [houtcome]
    exact ⟨[], (List.append_nil _).symm, rfl, rfl, rfl⟩
  | true =>
    have houtcome : (flush line).outcome s =
        (.error (.fault (.onLine line Evaluation.brokenPipe)), s) :=
      outcome_of_refusal (Request.answer_flush_of hflush)
    rw [houtcome]
    exact ⟨[], (List.append_nil _).symm, rfl, rfl, rfl, rfl, rfl⟩

/-- Entering makes the stack one higher. -/
theorem tells_enter {halt : Halt → Session → List Mark → List Event → Prop}
    (hs : s.memory.depth? = some n) :
    Tells (enter name) s
      (fun _ t marks events =>
        t.memory.depth? = some (n + 1) ∧ marks = [] ∧ events = [.entering name (n + 1)]) halt := by
  obtain ⟨hdepth, hevents⟩ := Memory.depth?_enter name hs
  refine ⟨[.entering name (n + 1)], ?_, hdepth, rfl, rfl⟩
  rw [← hevents]
  exact Log.toList_addAll s.log _

/-- Resuming makes it one lower. -/
theorem tells_resume {halt : Halt → Session → List Mark → List Event → Prop}
    (hs : s.memory.depth? = some n) :
    Tells resume s
      (fun _ t marks events =>
        t.memory.depth? = some (n - 1) ∧ marks = [] ∧ events = [.resuming (n - 1)]) halt := by
  obtain ⟨hdepth, hevents⟩ := Memory.depth?_restore hs
  refine ⟨[.resuming (n - 1)], ?_, hdepth, rfl, rfl⟩
  rw [← hevents]
  exact Log.toList_addAll s.log _

/-! ## Expressions and statements

The two shapes of dialogues, and how they are put together.  Depths are counted as the calls in the
dialogue see them: where the stack has `n` records, a call makes it `n + 1`. -/

/-- After a halt of something that runs with a stack of depth `n`: as many records more as there are
brackets left open. -/
def Halted (n : Nat) (t : Session) (marks : List Mark) (events : List Event) : Prop :=
  ∃ k, t.memory.depth? = some (n + k) ∧ LeftOpen .events (n + 1) k marks events

/-- The dialogue makes calls one after another and leaves the stack as high as it was. -/
def Settles (d : Dialogue α) : Prop :=
  ∀ s n, s.memory.depth? = some n →
    Tells d s (fun _ t marks events => t.memory.depth? = some n ∧ Brackets .events (n + 1) marks events)
      fun _ => Halted n

/-- How a statement ends that runs with a stack of depth `n`.  If it returns, the stack has become
lower, and that is reported last. -/
inductive Completed (n : Nat) : Completion → Session → List Mark → List Event → Prop where
  | normal {t : Session} {marks : List Mark} {events : List Event}
      (hdepth : t.memory.depth? = some n) (h : Brackets .events (n + 1) marks events) :
      Completed n .normal t marks events
  | returned {v : Value} {t : Session} {marks : List Mark} {events : List Event}
      (hdepth : t.memory.depth? = some (n - 1)) (h : Brackets .events (n + 1) marks events) :
      Completed n (.returned v) t marks (events ++ [.resuming (n - 1), .returning v])

/-- The dialogue of a statement: it makes calls, and may return after them. -/
def Closes (d : Dialogue Completion) : Prop :=
  ∀ s n, s.memory.depth? = some n → Tells d s (Completed n) fun _ => Halted n

/-- Calls that are over, before what a halt leaves. -/
theorem Halted.of_brackets {t : Session} (h : Brackets .events (n + 1) marks events)
    (h' : Halted n t marks' events') : Halted n t (marks ++ marks') (events ++ events') := by
  obtain ⟨k, hdepth, hopen⟩ := h'
  exact ⟨k, hdepth, h.leftOpen hopen⟩

/-- A halt outside all calls leaves nothing open. -/
theorem Halted.here {t : Session} (h : t.memory.depth? = some n) : Halted n t [] [] :=
  ⟨0, h, .none .none⟩

/-- Calls that are over, before the end of a statement. -/
theorem Completed.of_brackets {c : Completion} {t : Session} (h : Brackets .events (n + 1) marks events)
    (h' : Completed n c t marks' events') :
    Completed n c t (marks ++ marks') (events ++ events') := by
  cases h' with
  | normal hdepth h' => exact .normal hdepth (h.append h')
  | returned hdepth h' =>
    rw [← List.append_assoc]
    exact .returned hdepth (h.append h')

/-- A result by itself calls nothing. -/
theorem Settles.done {a : α} : Settles (.done a) := fun _ _ hs => .done ⟨hs, .none⟩

/-- A halt by itself has begun nothing. -/
theorem Settles.halt {e : Halt} : Settles (.halt e : Dialogue α) := fun _ _ hs => .halted (.here hs)

/-- A request that neither reports anything nor marks a call. -/
theorem Settles.plain {q : Request} (hq : q.Plain) (hcalls : calls [q] = []) :
    Settles (request q) := by
  intro s n hs
  refine (tells_plain hq).mono ?_ ?_
  · rintro reply t marks events - ⟨hdepth, rfl, rfl⟩
    rw [hcalls]
    exact ⟨hdepth.trans hs, .none⟩
  · rintro e t marks events ⟨hdepth, rfl, rfl⟩
    rw [hcalls]
    exact .here (hdepth.trans hs)

/-- The calls of one part, and then those of the next. -/
theorem Settles.bind {d : Dialogue α} {f : α → Dialogue β} (hd : Settles d)
    (hf : ∀ a, Settles (f a)) : Settles (d >>= f) := by
  intro s n hs
  refine (hd s n hs).bind ?_ fun e t marks events h => h
  rintro a t marks events - ⟨ht, hbrackets⟩
  refine (hf a t n ht).mono ?_ ?_
  · rintro b u marks' events' - ⟨hu, hbrackets'⟩
    exact ⟨hu, hbrackets.append hbrackets'⟩
  · exact fun e u marks' events' h => h.of_brackets hbrackets

/-- The calls of an expression, and then those of the statement it is a part of. -/
theorem Settles.bind_closes {d : Dialogue α} {f : α → Dialogue Completion} (hd : Settles d)
    (hf : ∀ a, Closes (f a)) : Closes (d >>= f) := by
  intro s n hs
  refine (hd s n hs).bind ?_ fun e t marks events h => h
  rintro a t marks events - ⟨ht, hbrackets⟩
  refine (hf a t n ht).mono ?_ ?_
  · exact fun c u marks' events' _ h => h.of_brackets hbrackets
  · exact fun e u marks' events' h => h.of_brackets hbrackets

/-- A statement that does nothing goes on. -/
theorem Closes.normal : Closes (.done .normal) := fun _ _ hs => .done (.normal hs .none)

/-- What comes after a statement runs only if this ends normally. -/
theorem Closes.followed {d d' : Dialogue Completion} (hd : Closes d) (hd' : Closes d') :
    Closes (do
      match ← d with
      | .returned v => pure (.returned v)
      | _ => d') := by
  intro s n hs
  refine (hd s n hs).bind ?_ fun e t marks events h => h
  rintro c t marks events - hc
  cases hc with
  | normal ht hbrackets =>
    refine (hd' t n ht).mono ?_ ?_
    · exact fun c u marks' events' _ h => h.of_brackets hbrackets
    · exact fun e u marks' events' h => h.of_brackets hbrackets
  | @returned v _ _ told ht hbrackets =>
    refine .done ?_
    rw [List.append_nil, List.append_nil]
    exact .returned ht hbrackets

/-- A variable calls nothing, and halts where it is not defined. -/
theorem settles_lookUp {name : String} {line : Nat} : Settles (lookUp name line) := by
  unfold lookUp
  split
  · exact .done
  · refine (Settles.plain (q := .find name) trivial rfl).bind fun found => ?_
    split
    · exact .done
    · exact .halt

/-- A `return` goes down by one record and reports that, and then the value. -/
theorem closes_return :
    Closes (do
      resume
      report (.returning v)
      pure (.returned v)) := by
  intro s n hs
  refine Tells.bind (tells_resume hs) ?_ fun e t marks events (h : Halted n t marks events) => h
  rintro _ t marks events - ⟨ht, rfl, rfl⟩
  refine tells_report.bind ?_ fun e u marks events h => h
  rintro _ u marks events - ⟨hu, rfl, rfl⟩
  refine .done ?_
  have hdepth : u.memory.depth? = some (n - 1) := by
    rw [hu, ht]
  exact Completed.returned hdepth .none

/-! ## Calls -/

/-- **A call is one bracket**, with the function, the arguments and the value of the call.  A call
that halts has begun one. -/
theorem tells_frame {given : Dialogue Unit} {body : Dialogue Completion} (hgiven : Settles given)
    (hbody : Closes body) (hreturns : Evaluation.Returns body.held) {s : Session}
    (hs : s.memory.depth? = some n) :
    Tells (frame name arguments given body) s
      (fun v t marks events =>
        t.memory.depth? = some n ∧ Bracket .events (n + 1) name arguments v marks events)
      fun _ t marks events => ∃ k, t.memory.depth? = some (n + k) ∧
        Begun .events (n + 1) name arguments k marks events := by
  -- a halt on the inside leaves this bracket open, too
  have hwithin : ∀ {t : Session} {marks : List Mark} {events : List Event},
      Halted (n + 1) t marks events → ∃ k, t.memory.depth? = some (n + k) ∧
        Begun .events (n + 1) name arguments k (.call name arguments :: marks)
          (.calling name arguments :: .entering name (n + 1) :: events) := by
    rintro t marks events ⟨k, hdepth, hopen⟩
    refine ⟨k + 1, ?_, .within hopen⟩
    rw [hdepth, Nat.add_assoc, Nat.add_comm 1 k]
  refine tells_mark.bind ?_ fun _ _ _ _ h => h
  rintro _ t marks events - ⟨rfl, rfl, rfl⟩
  refine tells_report.bind ?_ fun _ _ _ _ h => h
  rintro _ u marks events - ⟨hu, rfl, rfl⟩
  rw [← hu] at hs
  refine (tells_enter hs).bind ?_ fun _ _ _ _ h => h
  rintro _ entered marks events - ⟨hentered, rfl, rfl⟩
  refine (hgiven entered (n + 1) hentered).bind ?_ fun _ _ _ _ h => hwithin h
  rintro _ start marks events - ⟨hstart, hbrackets⟩
  refine (hbody start (n + 1) hstart).bind ?_ ?_
  · rintro c left marks' events' hc hcompleted
    obtain ⟨v, rfl⟩ := (hreturns start).of_ok (held_of_outcome hc)
    cases hcompleted with
    | @returned _ _ _ told hleft hmore =>
      refine tells_mark.bind ?_ fun _ _ _ _ h => h
      rintro _ t marks events - ⟨rfl, rfl, rfl⟩
      refine .done ⟨hleft, ?_⟩
      have hcall : Bracket .events (n + 1) name arguments v _ _ := .call (hbrackets.append hmore)
      simpa [calls] using hcall
  · intro e t marks' events' h
    have hmore : Halted (n + 1) t (marks ++ marks') (events ++ events') := h.of_brackets hbrackets
    exact hwithin hmore

/-- Seen from the outside, a call is brackets that are closed or left open like any others. -/
theorem settles_frame {given : Dialogue Unit} {body : Dialogue Completion} (hgiven : Settles given)
    (hbody : Closes body) (hreturns : Evaluation.Returns body.held) :
    Settles (frame name arguments given body) := by
  intro s n hs
  refine (tells_frame hgiven hbody hreturns hs).mono ?_ ?_
  · rintro v t marks events - ⟨ht, hbracket⟩
    exact ⟨ht, hbracket.brackets⟩
  · rintro e t marks events ⟨k, hdepth, hbegun⟩
    exact ⟨k, hdepth, hbegun.leftOpen⟩

/-! ## Whole programs

The judgement, and what it says of runs. -/

/-- **Bracketing is a judgement**, whatever functions there are. -/
def bracketing (p : Program) : Judgement p where
  within _ _ := True
  asks _ _ _ d := Settles d
  does _ _ d := Settles d
  ends _ d := Closes d
  child _ _ := trivial
  declared _ _ := trivial
  asks_done := .done
  asks_halt _ := .halt
  asks_bind hd hg := hd.bind hg
  asks_visit := .plain trivial rfl
  asks_lookUp := settles_lookUp
  asks_flush := .plain trivial rfl
  does_of_asks hd := hd
  does_bind hd hg := hd.bind hg
  does_assign _ _ := .plain trivial rfl
  does_parameter _ _ _ := .plain trivial rfl
  does_write := .plain trivial rfl
  does_read := .plain trivial rfl
  ends_done := .normal
  ends_bind hd hg := hd.bind_closes hg
  ends_followed hd hd' := hd.followed hd'
  ends_returning := closes_return
  asks_frame _ hgiven hbody hreturns := settles_frame hgiven hbody hreturns

variable {p : Program}

/-- A call of a program, which is refused or makes one bracket. -/
theorem tells_invoke (hp : p.WellFormed) (fuel : Nat) (name : String) (arguments : List Value)
    (line : Nat) {s : Session} (hs : s.memory.depth? = some n) :
    Tells (invoke p (evaluate p fuel) name arguments line) s
      (fun v t marks events =>
        t.memory.depth? = some n ∧ Bracket .events (n + 1) name arguments v marks events)
      fun _ t marks events => ∃ k, t.memory.depth? = some (n + k) ∧
        Begun .events (n + 1) name arguments k marks events := by
  have hlevel := (bracketing p).level hp fuel
  rcases hlevel.invoke_cases hp [] name arguments line with
    ⟨cause, hinvoke⟩ | ⟨given, body, hgiven, hbody, hreturns, hinvoke⟩
  · rw [hinvoke]
    exact .halted ⟨0, hs, .not⟩
  · rw [hinvoke]
    exact tells_frame hgiven hbody hreturns hs

/-- The call has come to its end, but the output could not be passed on. -/
def FlushFailed (p : Program) (e : Halt) (t : Session) : Prop :=
  t.output.flushFails = true ∧ ∃ function, p.function? entryPoint = some function ∧
    e = .fault (.onLine function.line Evaluation.brokenPipe)

/-- A run is the call of the entry point.  It can also fail after that, when the output is passed
on. -/
theorem tells_run (fuel : Nat) (hp : p.WellFormed) {s : Session} (hs : s.memory.depth? = some n) :
    Tells (run p fuel) s
      (fun v t marks events =>
        t.memory.depth? = some n ∧ Bracket .events (n + 1) entryPoint [] v marks events)
      fun e t marks events =>
        (∃ k, t.memory.depth? = some (n + k) ∧ Begun .events (n + 1) entryPoint [] k marks events) ∨
          (FlushFailed p e t ∧ t.memory.depth? = some n ∧
            ∃ v, Bracket .events (n + 1) entryPoint [] v marks events) := by
  unfold run
  cases hmain : p.function? entryPoint with
  | none => exact .halted (Or.inl ⟨0, hs, .not⟩)
  | some function =>
    dsimp only
    refine (tells_invoke hp fuel entryPoint [] function.line hs).bind ?_ fun _ _ _ _ h => Or.inl h
    rintro v t marks events - ⟨ht, hbracket⟩
    -- the output is passed on outside the bracket
    refine tells_flush.bind ?_ ?_
    · rintro _ u marks' events' - ⟨rfl, rfl, rfl⟩
      refine .done ⟨ht, ?_⟩
      simpa using hbracket
    · rintro e u marks' events' ⟨rfl, rfl, rfl, hflush, rfl⟩
      refine Or.inr ⟨⟨hflush, function, hmain, rfl⟩, ht, v, ?_⟩
      simpa using hbracket

end Dialogue

namespace Program

open Dialogue

/-- What a run from a stack of depth `d` has said of its calls, in the words `w`. -/
structure Bracketed {ω : Type} (w : Vocabulary ω) (p : Program) (fuel : Nat) (s : Session) (d : Nat)
    (told : List ω) : Prop where
  /-- A run that succeeds is one call of the entry point and yields its value. -/
  succeeded : ∀ v, (p.runIn fuel s).1 = .ok v →
    Bracket w (d + 1) entryPoint [] v (calls (p.transcript fuel s)) told ∧
      (p.runIn fuel s).2.memory.depth? = some d
  /-- A run that fails says less than a whole call, and the stack has grown by the brackets that are
  left open; or the call is whole, and only its output could not be passed on. -/
  failed : ∀ e, (p.runIn fuel s).1 = .error e →
    (∃ k, Begun w (d + 1) entryPoint [] k (calls (p.transcript fuel s)) told ∧
      (p.runIn fuel s).2.memory.depth? = some (d + k) ∧
      ∀ v, ∃ marks' told', Bracket w (d + 1) entryPoint [] v marks' told' ∧
        calls (p.transcript fuel s) <+: marks' ∧ told <+: told' ∧ told ≠ told') ∨
    (∃ v, Bracket w (d + 1) entryPoint [] v (calls (p.transcript fuel s)) told) ∧
      (p.runIn fuel s).2.memory.depth? = some d ∧ FlushFailed p e (p.runIn fuel s).2

/-- The events that a run from a stack of depth `d` adds to the log.  All of them are for the
debugging level, so this shows each of them, by its message; and both the events and the messages
are bracketed. -/
structure CallsLogged (p : Program) (fuel : Nat) (s : Session) (d : Nat) (events : List Event) :
    Prop where
  log : (p.runIn fuel s).2.log.toList = s.log.toList ++ events
  reported : Event.reports .debug events = events.map fun e => "DEBUG " ++ e.message
  ofEvents : Bracketed .events p fuel s d events
  ofMessages : Bracketed .messages p fuel s d (events.map Event.message)

variable {p : Program} {fuel d : Nat} {s : Session}

/-- What has been said in words has been said in other words, too. -/
theorem Bracketed.map {ω ω' : Type} {w : Vocabulary ω} {told : List ω} (g : ω → ω')
    (h : Bracketed w p fuel s d told) : Bracketed (w.map g) p fuel s d (told.map g) := by
  constructor
  · intro v hv
    obtain ⟨hbracket, hdepth⟩ := h.succeeded v hv
    exact ⟨hbracket.map g, hdepth⟩
  · intro e he
    rcases h.failed e he with ⟨k, hbegun, hdepth, -⟩ | ⟨⟨v, hbracket⟩, hdepth, hflush⟩
    · have hbegun' := hbegun.map g
      exact Or.inl ⟨k, hbegun', hdepth, hbegun'.exists_bracket⟩
    · exact Or.inr ⟨⟨v, hbracket.map g⟩, hdepth, hflush⟩

/-- The events of a run are the first of those of some calls. -/
theorem Bracketed.exists_brackets {events : List Event} (h : Bracketed .events p fuel s d events) :
    ∃ marks' events', Brackets .events (d + 1) marks' events' ∧ events <+: events' := by
  cases houtcome : (p.runIn fuel s).1 with
  | ok v =>
    obtain ⟨hbracket, -⟩ := h.succeeded v houtcome
    exact ⟨_, _, hbracket.brackets, List.prefix_refl _⟩
  | error e =>
    rcases h.failed e houtcome with ⟨k, -, -, hfirst⟩ | ⟨⟨v, hbracket⟩, -, -⟩
    · obtain ⟨_, _, hbracket, -, hwithin, -⟩ := hfirst .none
      exact ⟨_, _, hbracket.brackets, hwithin⟩
    · exact ⟨_, _, hbracket.brackets, List.prefix_refl _⟩

/-- Events for the debugging level are all shown there. -/
theorem reports_debug {events : List Event} (h : ∀ e ∈ events, e.level = .debug) :
    Event.reports .debug events = events.map fun e => "DEBUG " ++ e.message := by
  have hshown : events.filter (Event.shownAt .debug) = events :=
    List.filter_eq_self.2 fun e he => decide_eq_true (h e he)
  rw [Event.reports, hshown]
  refine List.map_congr_left fun e he => ?_
  rw [Event.report, h e he]
  rfl

/-- **The log of calls is well bracketed.**  This holds of every program that is read, in every
session with a stack. -/
theorem callLog_of_parse {source : String} {p : Program} (h : parse source = .ok p) (fuel : Nat)
    (s : Session) {d : Nat} (hs : s.memory.depth? = some d) :
    ∃ events, p.CallsLogged fuel s d events := by
  obtain ⟨events, hlog, htold⟩ := tells_run fuel (wellFormed_of_parse h) hs
  rw [outcome_run] at hlog htold
  have hbracketed : Bracketed .events p fuel s d events := by
    constructor
    · intro v hv
      rw [hv] at htold
      exact ⟨htold.2, htold.1⟩
    · intro e he
      rw [he] at htold
      rcases htold with ⟨k, hdepth, hbegun⟩ | ⟨hflush, hdepth, hbracket⟩
      · exact Or.inl ⟨k, hbegun, hdepth, hbegun.exists_bracket⟩
      · exact Or.inr ⟨hbracket, hdepth, hflush⟩
  -- what holds of the events is carried over to their messages
  have hmessages := hbracketed.map Event.message
  rw [Vocabulary.map_message_events] at hmessages
  -- only debugging events stand in brackets, so nothing is held back at that level
  obtain ⟨marks', events', hbrackets, hwithin⟩ := hbracketed.exists_brackets
  have hdebug : ∀ e ∈ events, e.level = .debug :=
    fun e he => hbrackets.level_eq_debug e (hwithin.subset he)
  exact ⟨events, hlog, reports_debug hdebug, hbracketed, hmessages⟩

/-- A program that calls a function in the argument of another call and in the operand of a `return`,
with a number and with a quoted text. -/
def nestedCalls : String :=
  "fun main() \x7b return f(f(1.50)) + g(\"a\") \x7d fun f(n) \x7b write(n); return n \x7d " ++
    "fun g(t) \x7b return t \x7d"

/-- It holds of `nestedCalls`, whose log is this. -/
theorem callLog_of_parse_nested :
    ∃ p, parse nestedCalls = .ok p ∧
      (Session.start .stack [] .unlimited).memory.depth? = some 0 ∧
      ∃ events, p.CallsLogged 20 (.start .stack [] .unlimited) 0 events ∧
        events.map Event.message =
          ["calling main()", "entering main at depth 1",
            "calling f(1.5)", "entering f at depth 2", "resuming at depth 1", "returning 1.5",
            "calling f(1.5)", "entering f at depth 2", "resuming at depth 1", "returning 1.5",
            "calling g(\"a\")", "entering g at depth 2", "resuming at depth 1", "returning \"a\"",
            "resuming at depth 0", "returning 1.5a"] := by
  have hlogged : (parse nestedCalls).toOption.any fun p =>
      decide ((p.runIn 20 (.start .stack [] .unlimited)).2.log.toList.map Event.message =
        ["calling main()", "entering main at depth 1",
          "calling f(1.5)", "entering f at depth 2", "resuming at depth 1", "returning 1.5",
          "calling f(1.5)", "entering f at depth 2", "resuming at depth 1", "returning 1.5",
          "calling g(\"a\")", "entering g at depth 2", "resuming at depth 1", "returning \"a\"",
          "resuming at depth 0", "returning 1.5a"]) := by
    decide +kernel
  obtain ⟨p, hp, hmessages⟩ := exists_of_any hlogged
  obtain ⟨events, hevents⟩ := callLog_of_parse hp 20 (.start .stack [] .unlimited) rfl
  refine ⟨p, hp, rfl, events, hevents, ?_⟩
  have hlog : (p.runIn 20 (.start .stack [] .unlimited)).2.log.toList = events := hevents.log
  rw [← hlog]
  exact of_decide_eq_true hmessages

end Program
end Scriptlet
