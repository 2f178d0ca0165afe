import Scriptlet.Proofs.Session.Dialogue

/-!
Brackets of calls.

With the stack discipline a call is reported four times: that it is called and that it enters, both
before its body runs, and that the caller resumes and what is returned, both in the statement that
returns.  In between are the reports of the calls that its body makes.  So the reports of calls are a
language of brackets, each with the depth of the stack on the inside, and the grammar of that language
is given here.

The grammar is about words, and leaves open what the words are (`Vocabulary`).  There are two
vocabularies: the events of the log, and the messages that the log shows of them, which are spelled
out letter by letter.  A message is the message of its event (`map_message_events`), so what is
bracketed in events is bracketed in messages, too (`Brackets.map` and the lemmas beside it).

A log does not say what a call was given and what it came to.  The marks of a transcript do: they are
made where the call is made and where it yields its value.  So brackets are stated of marks and words
together, and agree on the function, the arguments and the value.

A run that fails leaves brackets open.  They are counted (`LeftOpen`), and what has been said until
then is the first part of what a whole call says, and never all of it (`Begun.exists_bracket`).
-/

namespace Scriptlet

/-! ## Words -/

/-- What is said where a function is called, where it enters, where its caller resumes, and where it
returns. -/
structure Vocabulary (ω : Type) where
  calling : String → List Value → ω
  entering : String → Nat → ω
  resuming : Nat → ω
  returning : Value → ω

namespace Vocabulary

variable {ω ω' : Type}

/-- Other words for the same. -/
def map (g : ω → ω') (w : Vocabulary ω) : Vocabulary ω' where
  calling name arguments := g (w.calling name arguments)
  entering name depth := g (w.entering name depth)
  resuming depth := g (w.resuming depth)
  returning v := g (w.returning v)

/-- The events of a log. -/
@[reducible] def events : Vocabulary Event where
  calling := .calling
  entering := .entering
  resuming := .resuming
  returning := .returning

/-- How a message shows a value: a number as it is written, a text as it is, with the quotes that it
has. -/
def shown : Value → String
  | .number x => Number.text x
  | .text s => s

/-- The messages of a log. -/
def messages : Vocabulary String where
  calling name arguments :=
    "calling " ++ name ++ "(" ++ ", ".intercalate (arguments.map shown) ++ ")"
  entering name depth := "entering " ++ name ++ " at depth " ++ toString depth
  resuming depth := "resuming at depth " ++ toString depth
  returning v := "returning " ++ shown v

/-- What is shown of a value is its display form. -/
theorem display_eq_shown : Value.display = shown := by
  funext v
  cases v with
  | number x => rw [Value.display, shown]
  | text s => rw [Value.display, shown]

/-- **The messages are those of the events.** -/
theorem map_message_events : events.map Event.message = messages := by
  unfold map messages
  rw [← display_eq_shown]
  rfl

end Vocabulary

/-! ## The grammar

Whole brackets, and brackets that are left open. -/

variable {ω : Type}

/-- The marks and words of calls one after another, each of which enters at depth `n`. -/
inductive Brackets (w : Vocabulary ω) : Nat → List Mark → List ω → Prop where
  | none {n : Nat} : Brackets w n [] []
  | cons {n : Nat} {name : String} {arguments : List Value} {v : Value} {inner marks : List Mark}
      {told more : List ω} (hinner : Brackets w (n + 1) inner told)
      (hmore : Brackets w n marks more) :
      Brackets w n (.call name arguments :: inner ++ .yield v :: marks)
        (w.calling name arguments :: w.entering name n :: told ++
          w.resuming (n - 1) :: w.returning v :: more)

/-- The marks and words of one call of the function with the arguments, which enters at depth `n` and
yields `v`. -/
inductive Bracket (w : Vocabulary ω) (n : Nat) (name : String) (arguments : List Value) (v : Value) :
    List Mark → List ω → Prop where
  | call {inner : List Mark} {told : List ω} (h : Brackets w (n + 1) inner told) :
      Bracket w n name arguments v (.call name arguments :: inner ++ [.yield v])
        (w.calling name arguments :: w.entering name n :: told ++
          [w.resuming (n - 1), w.returning v])

/-- Calls that enter at depth `n`; `k` brackets are left open, each in the one before. -/
inductive LeftOpen (w : Vocabulary ω) : Nat → Nat → List Mark → List ω → Prop where
  | none {n : Nat} {marks : List Mark} {told : List ω} (h : Brackets w n marks told) :
      LeftOpen w n 0 marks told
  | one {n k : Nat} {name : String} {arguments : List Value} {marks inner : List Mark}
      {told more : List ω} (h : Brackets w n marks told)
      (hinner : LeftOpen w (n + 1) k inner more) :
      LeftOpen w n (k + 1) (marks ++ .call name arguments :: inner)
        (told ++ w.calling name arguments :: w.entering name n :: more)

/-- The first part of a call that has not come to its end, with `k` brackets left open; it may not
have begun. -/
inductive Begun (w : Vocabulary ω) (n : Nat) (name : String) (arguments : List Value) :
    Nat → List Mark → List ω → Prop where
  | not : Begun w n name arguments 0 [] []
  | within {k : Nat} {inner : List Mark} {told : List ω} (h : LeftOpen w (n + 1) k inner told) :
      Begun w n name arguments (k + 1) (.call name arguments :: inner)
        (w.calling name arguments :: w.entering name n :: told)

variable {w : Vocabulary ω} {n k : Nat} {name : String} {arguments : List Value} {v : Value}
  {marks marks' : List Mark} {told told' : List ω}

/-- Calls after calls. -/
theorem Brackets.append (h : Brackets w n marks told) (h' : Brackets w n marks' told') :
    Brackets w n (marks ++ marks') (told ++ told') := by
  induction h with
  | none => exact h'
  | cons hinner hmore ihinner ih => simpa using Brackets.cons hinner (ih h')

/-- One call is a number of calls. -/
theorem Bracket.brackets (h : Bracket w n name arguments v marks told) : Brackets w n marks told := by
  cases h with
  | call h => exact .cons h .none

/-- Calls that are over stand before those that are left open. -/
theorem Brackets.leftOpen (h : Brackets w n marks told) (h' : LeftOpen w n k marks' told') :
    LeftOpen w n k (marks ++ marks') (told ++ told') := by
  cases h' with
  | none h' => exact .none (h.append h')
  | one h' hinner =>
    rw [← List.append_assoc, ← List.append_assoc]
    exact .one (h.append h') hinner

/-- A call that has begun is one bracket left open, with what it has left open inside; a call that
has not is none. -/
theorem Begun.leftOpen (h : Begun w n name arguments k marks told) : LeftOpen w n k marks told := by
  cases h with
  | not => exact .none .none
  | within h => exact .one .none h

/-! ## First parts

What has been said when a run fails can be completed. -/

/-- Brackets that are left open can be closed, with any values. -/
theorem LeftOpen.exists_brackets (h : LeftOpen w n k marks told) :
    ∃ marks' told', Brackets w n marks' told' ∧ marks <+: marks' ∧ told <+: told' := by
  induction h with
  | none h => exact ⟨_, _, h, List.prefix_refl _, List.prefix_refl _⟩
  | @one n k name arguments marks inner told more h hinner ih =>
    obtain ⟨inner', more', hclosed, ⟨restMarks, rfl⟩, ⟨rest, rfl⟩⟩ := ih
    have hcall : Bracket w n name arguments .none _ _ := .call hclosed
    refine ⟨_, _, h.append hcall.brackets, ⟨restMarks ++ [.yield .none], ?_⟩,
      ⟨rest ++ [w.resuming (n - 1), w.returning .none], ?_⟩⟩
    · simp
    · simp

/-- **What has begun is the first part of a call**, and less than all of it. -/
theorem Begun.exists_bracket (h : Begun w n name arguments k marks told) (v : Value) :
    ∃ marks' told', Bracket w n name arguments v marks' told' ∧ marks <+: marks' ∧
      told <+: told' ∧ told ≠ told' := by
  cases h with
  | not => exact ⟨_, _, .call .none, List.nil_prefix, List.nil_prefix, by simp⟩
  | @within k inner told h =>
    obtain ⟨inner', told', hclosed, ⟨restMarks, rfl⟩, ⟨rest, rfl⟩⟩ := h.exists_brackets
    refine ⟨_, _, .call hclosed, ⟨restMarks ++ [.yield v], ?_⟩,
      ⟨rest ++ [w.resuming (n - 1), w.returning v], ?_⟩, ?_⟩
    · simp
    · simp
    · simp

/-! ## In other words

The grammar knows nothing of its words, so it is kept by any translation of them. -/

section Words

variable {ω' : Type} (g : ω → ω')

/-- Calls one after another, said in other words. -/
theorem Brackets.map (h : Brackets w n marks told) :
    Brackets (w.map g) n marks (told.map g) := by
  induction h with
  | none => exact .none
  | cons hinner hmore ihinner ih => simpa [Vocabulary.map] using Brackets.cons ihinner ih

theorem Bracket.map (h : Bracket w n name arguments v marks told) :
    Bracket (w.map g) n name arguments v marks (told.map g) := by
  cases h with
  | call h => simpa [Vocabulary.map] using Bracket.call (h.map g)

/-- Calls that are left open, said in other words. -/
theorem LeftOpen.map (h : LeftOpen w n k marks told) :
    LeftOpen (w.map g) n k marks (told.map g) := by
  induction h with
  | none h => exact .none (h.map g)
  | one h hinner ih => simpa [Vocabulary.map] using LeftOpen.one (h.map g) ih

/-- A call that has begun, said in other words. -/
theorem Begun.map (h : Begun w n name arguments k marks told) :
    Begun (w.map g) n name arguments k marks (told.map g) := by
  cases h with
  | not => exact .not
  | within h => exact .within (h.map g)

end Words

/-- All events of calls are for the debugging log. -/
theorem Brackets.level_eq_debug {marks : List Mark} {events : List Event}
    (h : Brackets .events n marks events) : ∀ e ∈ events, e.level = .debug := by
  induction h with
  | none => simp
  | cons hinner hmore ihinner ih =>
    intro e he
    simp only [List.cons_append, List.mem_cons, List.mem_append] at he
    rcases he with rfl | rfl | htold | rfl | rfl | hmore
    · rfl
    · rfl
    · exact ihinner e htold
    · rfl
    · rfl
    · exact ih e hmore

end Scriptlet
