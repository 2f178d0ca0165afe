import Scriptlet.Proofs.Session.Dialogue
import Scriptlet.Proofs.Session.Persistence
import Scriptlet.Proofs.Session.Safety
import Scriptlet.Proofs.Token.NumberWords

/-!
What a variable is read as.

An assignment, a line that is read and an argument that is handed over each give a variable of the
current record a value.  The value is there until the same variable of the same record gets another
one, whatever becomes of other variables and other records in between: calls, returns, lines read and
written, and evaluations that were broken off.  So the name yields the value whenever that record is
the current one.

All that an evaluation does to its session are requests, one after another
(`Dialogue.sessionAfter_held`).  One request changes no variable but the one that it assigns to
(`Session.find?_sessionAfter`), and by induction neither do any number of them
(`Session.find?_afterAll`).  Of the programs nothing else is used, so the statement is about any
requests at all.

Names that read as numbers are never looked up.  Of the names that a source text can have they are the
words for infinity and for no number, and these yield the number whatever the record has for them.

The invariant that is needed besides is that the current record exists (`Allocated`).  An assignment
through a handle that no record has would be lost.  No session is in this state: a new one is not, and
each request leads to a record that is there.

Main statement: `Evaluation.names_read_back`.
-/

namespace Scriptlet

/-! ## What is found -/

namespace Session

/-- One of the requests, which are made from the session on, gives the variable of the record a
value. -/
def Rebinds (name : String) (record : Handle) : Session → List Request → Prop
  | _, [] => False
  | s, q :: qs =>
    (s.current = record ∧ ∃ v, q = .assign name v) ∨ Rebinds name record (q.answer.sessionAfter s) qs

variable {s t : Session} {record : Handle} {name : String} {v : Value}

/-- **One request** changes no variable but the one that it assigns to. -/
theorem find?_sessionAfter {q : Request} (h : ¬ (s.current = record ∧ ∃ v, q = .assign name v)) :
    (q.answer.sessionAfter s).memory.find? record name = s.memory.find? record name := by
  by_cases htouches : q.Touches
  · cases q with
    | assign other w =>
      refine Memory.find?_insert_of_ne ?_
      rintro ⟨rfl, rfl⟩
      exact h ⟨rfl, w, rfl⟩
    | enter function => exact Memory.find?_enter
    | resume => exact Memory.find?_restore
    | _ => cases htouches
  · rw [(Request.quiet_answer htouches s).sessionAfter.1]

/-- **Any number of requests**: the value is found until the variable gets another one. -/
theorem find?_afterAll {qs : List Request} (h : ¬ s.Rebinds name record qs) :
    (s.afterAll qs).memory.find? record name = s.memory.find? record name := by
  induction qs generalizing s with
  | nil => rfl
  | cons q qs ih =>
    obtain ⟨hfirst, hrest⟩ := not_or.1 h
    rw [afterAll_cons, ih hrest, find?_sessionAfter hfirst]

/-! ## The current record is there -/

/-- The current record is there, and so are all that may become current again. -/
inductive Allocated (s : Session) : Prop where
  | shared {record : Handle} (h : s.Shares record) (hcurrent : s.current < s.memory.records.size)
  | stack {active : Array Handle} (h : s.Stacked active)

theorem Allocated.current (h : s.Allocated) : s.current < s.memory.records.size := by
  cases h with
  | shared h hcurrent => exact hcurrent
  | stack h => exact h.current

theorem allocated_start (discipline : Discipline) (input : List UInt8) (output : Output) :
    (start discipline input output).Allocated := by
  cases discipline with
  | shared => exact @Allocated.shared _ 0 ⟨rfl, Nat.zero_lt_two⟩ Nat.one_lt_two
  | stack =>
    refine @Allocated.stack _ #[] ⟨rfl, ?_, Nat.zero_lt_one⟩
    intro record hrecord
    exact absurd hrecord (Array.not_mem_empty record)

theorem Allocated.of_eq (h : s.Allocated) (hmemory : t.memory = s.memory)
    (hcurrent : t.current = s.current) : t.Allocated := by
  cases h with
  | shared h hallocated =>
    refine .shared ((Retains.of_eq hmemory).shared _ h) ?_
    rw [hmemory, hcurrent]
    exact hallocated
  | stack h => exact .stack (h.of_eq hmemory hcurrent)

theorem Allocated.assigned (h : s.Allocated) (name : String) (v : Value) :
    Allocated { s with memory := s.memory.insert s.current name v } := by
  cases h with
  | shared h hallocated =>
    refine .shared ((Retains.assigned name v).shared _ h) ?_
    exact Nat.lt_of_lt_of_eq hallocated Memory.size_insert.symm
  | stack h => exact .stack (h.assigned name v)

/-- A shared record is handed out again and again, and nothing else happens. -/
theorem Allocated.handedOut (h : s.Shares record) (hmemory : t.memory = s.memory)
    (hcurrent : t.current = record) : t.Allocated := by
  refine .shared ((Retains.of_eq hmemory).shared _ h) ?_
  rw [hmemory, hcurrent]
  exact h.allocated

/-- No request leads to a record that is not there. -/
theorem Allocated.sessionAfter (h : s.Allocated) (q : Request) :
    (q.answer.sessionAfter s).Allocated := by
  by_cases htouches : q.Touches
  · -- only three requests touch the memory
    cases q with
    | assign name v => exact h.assigned name v
    | enter function =>
      cases h with
      | @shared record h hallocated =>
        obtain ⟨⟨records, holding⟩, current, input, output, log⟩ := s
        cases h.holding
        exact .handedOut h rfl rfl
      | stack h => exact .stack (Evaluation.leads_enter h).sessionAfter.1
    | resume =>
      cases h with
      | @shared record h hallocated =>
        obtain ⟨⟨records, holding⟩, current, input, output, log⟩ := s
        cases h.holding
        exact .handedOut h rfl rfl
      | stack h => exact .stack (Evaluation.leads_resume h).sessionAfter.1
    | _ => cases htouches
  · obtain ⟨hmemory, hcurrent⟩ := (Request.quiet_answer htouches s).sessionAfter
    exact h.of_eq hmemory hcurrent

theorem Allocated.afterAll (h : s.Allocated) (qs : List Request) : (s.afterAll qs).Allocated := by
  induction qs generalizing s with
  | nil => exact h
  | cons q qs ih => exact ih (h.sessionAfter q)

end Session

namespace Evaluation

/-! ## Giving a variable a value

The three ways in which a variable of the current record gets one. -/

/-- The variable `name` of the current record is given the value `v`: by an assignment whose
expression has this value, by a line of the input, or as a parameter, if no later one has the same
name.  The sessions are those before and after it. -/
inductive Binds (p : Program) (name : String) (v : Value) : Session → Session → Prop where
  | assignment {n line : Nat} {target expression : Node} {s u t : Session}
      (htarget : target.label = .identifier name)
      (hvalue : valueOf (evaluate p n) expression s = .ok v u)
      (h : evaluate p (n + 1) (.binary .assign target expression line) s = .ok .normal t) :
      Binds p name v s t
  | reading {n line : Nat} {target : Node} {text : String} {s u t : Session}
      (htarget : target.label = .identifier name) (htext : v = .ofText text)
      (hline : nextLine line name s = .ok text u)
      (h : evaluate p (n + 1) ⟨.read, [target], line⟩ s = .ok .normal t) : Binds p name v s t
  | parameter {parameters : List Node} {arguments : List Value} {parameter : Node}
      {before behind : List (Node × Value)} {s t : Session}
      (hparameter : parameter.label = .identifier name)
      (hpairs : parameters.zip arguments = before ++ (parameter, v) :: behind)
      (hlast : ∀ pair ∈ behind, pair.1.label ≠ .identifier name)
      (h : assignAll parameters arguments s = .ok () t) : Binds p name v s t

variable {p : Program} {name : String} {v : Value} {s t u : Session} {node : Node} {n : Nat}

theorem nameOf_of_label (h : node.label = .identifier name) : nameOf node = pure name := by
  unfold nameOf
  rw [h]

/-- What has been assigned is found. -/
theorem find?_assigned (hs : s.Allocated) (name : String) (v : Value) :
    (s.memory.insert s.current name v).find? s.current name = some v := by
  rw [Memory.find?_insert hs.current, if_pos ⟨rfl, rfl⟩]

/-- The value of an expression leaves a session with a current record. -/
theorem allocated_of_valueOf {expression : Node} (hs : s.Allocated)
    (h : valueOf (evaluate p n) expression s = .ok v u) : u.Allocated := by
  have hheld : (Dialogue.valueOf (Dialogue.evaluate p n) expression).held =
      valueOf (evaluate p n) expression := by
    rw [Dialogue.held_valueOf, funext (Dialogue.held_evaluate n)]
  rw [← hheld] at h
  rw [← sessionAfter_of_ok h, Dialogue.sessionAfter_held]
  exact hs.afterAll _

/-- One parameter after the other. -/
theorem assignAll_of_ok {parameter : Node} {parameters : List Node} {argument : Value}
    {arguments : List Value}
    (h : assignAll (parameter :: parameters) (argument :: arguments) s = .ok () t) :
    ∃ name, parameter.label = .identifier name ∧
      assignAll parameters arguments { s with memory := s.memory.insert s.current name argument } =
        .ok () t := by
  obtain ⟨label, children, line⟩ := parameter
  cases label with
  | identifier name => exact ⟨name, rfl, h⟩
  | _ => cases h

/-- Parameters with other names leave the variable as it is. -/
theorem find?_assignAll_of_ne {parameters : List Node} {arguments : List Value}
    (h : assignAll parameters arguments s = .ok () t)
    (hne : ∀ pair ∈ parameters.zip arguments, pair.1.label ≠ .identifier name) :
    t.current = s.current ∧ t.memory.find? s.current name = s.memory.find? s.current name := by
  induction parameters generalizing arguments s with
  | nil =>
    cases h
    exact ⟨rfl, rfl⟩
  | cons parameter parameters ih =>
    cases arguments with
    | nil =>
      cases h
      exact ⟨rfl, rfl⟩
    | cons argument arguments =>
      rw [List.zip_cons_cons, List.forall_mem_cons] at hne
      obtain ⟨other, hother, hrest⟩ := assignAll_of_ok h
      obtain ⟨hcurrent, hfind⟩ := ih hrest hne.2
      refine ⟨hcurrent, hfind.trans (Memory.find?_insert_of_ne ?_)⟩
      rintro ⟨-, rfl⟩
      exact hne.1 hother

/-- The last parameter of a name is the one that counts. -/
theorem find?_assignAll {parameters : List Node} {arguments : List Value} {parameter : Node}
    {before behind : List (Node × Value)} (hs : s.Allocated)
    (h : assignAll parameters arguments s = .ok () t)
    (hparameter : parameter.label = .identifier name)
    (hpairs : parameters.zip arguments = before ++ (parameter, v) :: behind)
    (hlast : ∀ pair ∈ behind, pair.1.label ≠ .identifier name) :
    t.memory.find? t.current name = some v := by
  induction before generalizing parameters arguments s with
  | nil =>
    obtain ⟨parameters, arguments, rfl, rfl, rfl⟩ := List.zip_eq_cons_iff.1 hpairs
    obtain ⟨own, hown, hrest⟩ := assignAll_of_ok h
    obtain rfl := Label.identifier.inj (hown.symm.trans hparameter)
    obtain ⟨hcurrent, hfind⟩ := find?_assignAll_of_ne hrest hlast
    rw [hcurrent, hfind]
    exact find?_assigned hs own v
  | cons pair before ih =>
    obtain ⟨first, argument⟩ := pair
    obtain ⟨parameters, arguments, rfl, rfl, hrest⟩ := List.zip_eq_cons_iff.1 hpairs
    obtain ⟨own, -, hassign⟩ := assignAll_of_ok h
    exact ih (hs.assigned own argument) hassign hrest.symm

/-- **What a variable is given is found.** -/
theorem Binds.find? (h : Binds p name v s t) (hs : s.Allocated) :
    t.memory.find? t.current name = some v := by
  cases h with
  -- an assignment, a `read` and a parameter; the first two are evaluated step by step up to the
  -- binding
  | @assignment n line target expression s u t htarget hvalue h =>
    have hstep : evaluate p (n + 1) (.binary .assign target expression line) s =
        (valueOf (evaluate p n) expression >>= fun w =>
          nameOf target >>= fun x => assign x w >>= fun _ => pure .normal) s := rfl
    rw [hstep, nameOf_of_label htarget] at h
    simp only [Bind.bind, EStateM.bind, hvalue] at h
    cases h
    exact find?_assigned (allocated_of_valueOf hs hvalue) name v
  | @reading n line target text s u t htarget htext hline h =>
    have hstep : evaluate p (n + 1) ⟨.read, [target], line⟩ s =
        (nameOf target >>= fun x => nextLine line x >>= fun text =>
          assign x (.ofText text) >>= fun _ => pure .normal) s := rfl
    rw [hstep, nameOf_of_label htarget] at h
    simp only [pure_bind] at h
    simp only [Bind.bind, EStateM.bind, hline] at h
    cases h
    obtain ⟨hmemory, hcurrent⟩ := (quiet_nextLine s).of_ok hline
    rw [htext]
    exact find?_assigned (hs.of_eq hmemory hcurrent) name _
  | parameter hparameter hpairs hlast h => exact find?_assignAll hs h hparameter hpairs hlast

/-! ## Reading it -/

theorem evaluate_identifier (hnode : node.label = .identifier name) :
    evaluate p (n + 1) node = (do
      let v ← lookUp name node.line
      pure (.value v)) := by
  rw [evaluate_succ, step, hnode]

/-- A name that reads as no number yields what is found. -/
theorem evaluate_of_find? (hnode : node.label = .identifier name) (hread : Number.read? name = none)
    (hfind : s.memory.find? s.current name = some v) :
    evaluate p (n + 1) node s = .ok (.value v) s := by
  rw [evaluate_identifier hnode, lookUp, hread]
  dsimp only
  rw [bind_assoc, get_bind_apply, hfind]
  rfl

/-- A name that reads as a number yields it, whatever is found. -/
theorem evaluate_of_read? {x : Float} (hnode : node.label = .identifier name)
    (hread : Number.read? name = some x) :
    evaluate p (n + 1) node s = .ok (.value (.number x)) s := by
  rw [evaluate_identifier hnode, lookUp, hread]
  rfl

/-! ## Names of source texts -/

/-- Whatever value the variable is given, in a session that any requests have led to: it is read back
from the same record after any further requests, as long as none of them gives the variable of that
record another value. -/
def ReadsBack (name : String) : Prop :=
  ∀ discipline input output before p v t,
    Binds p name v ((Session.start discipline input output).afterAll before) t →
    ∀ after, ¬ t.Rebinds name t.current after → (t.afterAll after).current = t.current →
    ∀ q n node, node.label = .identifier name →
      evaluate q (n + 1) node (t.afterAll after) = .ok (.value v) (t.afterAll after)

/-- The name yields the number in every session, whatever the variable has been given. -/
def YieldsAlways (name : String) (x : Float) : Prop :=
  ∀ p n node s, node.label = .identifier name →
    evaluate p (n + 1) node s = .ok (.value (.number x)) s

theorem readsBack_of_read? (h : Number.read? name = none) : ReadsBack name := by
  intro discipline input output before p v t hbinds after hrebinds hcurrent q n node hnode
  have hallocated := (Session.allocated_start discipline input output).afterAll before
  refine evaluate_of_find? hnode h ?_
  rw [hcurrent, Session.find?_afterAll hrebinds, hbinds.find? hallocated]

/-- **Every variable is read back**, but for the words for a number.  Take any name that a source
text has as a token, also in front of a fault.

* It reads as a number exactly if it is one of the two words, perhaps with blanks behind it.
* If it is neither, then whatever it is given is read back; the requests in between may be those of
  any evaluation, since all that an evaluation does to its session are its requests.
* If it is one of them, it yields that number always. -/
theorem names_read_back {source : String} {token : Token}
    (h : token ∈ (TokenStream.ofSource source).delivered) (hkind : token.kind = .identifier name) :
    ((Number.read? name).isSome = true ↔ Number.IsWord name) ∧
    (¬ Number.IsWord name → ReadsBack name) ∧
    (∀ p n node s, (evaluate p n node).sessionAfter s =
      s.afterAll ((Dialogue.evaluate p n node).transcript s)) ∧
    (Text.trimEnd name.toList = Number.infinityWord → YieldsAlways name (Binary.infinity false)) ∧
    (Text.trimEnd name.toList = Number.nanWord → YieldsAlways name Binary.notANumber) := by
  have hword := Number.isSome_read?_identifier h hkind
  refine ⟨hword, ?_, ?_, ?_, ?_⟩
  · intro hnot
    rw [← hword, Option.not_isSome_iff_eq_none] at hnot
    exact readsBack_of_read? hnot
  · intro p n node s
    rw [← Dialogue.sessionAfter_held, Dialogue.held_evaluate]
  · intro hinfinity p n node s hnode
    exact evaluate_of_read? hnode ((Number.read?_identifier h hkind).2 (Or.inl ⟨hinfinity, rfl⟩))
  · intro hnan p n node s hnode
    exact evaluate_of_read? hnode ((Number.read?_identifier h hkind).2 (Or.inr ⟨hnan, rfl⟩))

/-- It holds of a name that begins like an exponent.  Between its assignment and its use another
function is called, which has a variable of that name too. -/
theorem names_read_back_exponent :
    ∃ p, Program.parse "fun main() { e1 = 5; x = f(e1) }" = .ok p ∧
      ⟨.identifier "e1", 1⟩ ∈ (TokenStream.ofSource "fun main() { e1 = 5; x = f(e1) }").delivered ∧
      Number.read? "e1" = none ∧
      ∃ t, Binds p "e1" (.number 5)
          ((Session.start .stack [] .unlimited).afterAll [.enter "main"]) t ∧
        ∃ u, u = t.afterAll [.assign "x" .none, .enter "f", .assign "e1" .none, .resume] ∧
          evaluate p 1 (.leaf (.identifier "e1") 2) u = .ok (.value (.number 5)) u := by
  have hok : (Program.parse "fun main() { e1 = 5; x = f(e1) }").isOk := by decide +kernel
  obtain ⟨p, hp⟩ := Program.exists_of_isOk hok
  have htoken : ⟨.identifier "e1", 1⟩ ∈
      (TokenStream.ofSource "fun main() { e1 = 5; x = f(e1) }").delivered := by decide +kernel
  obtain ⟨hnumber, hkept, -, -, -⟩ := names_read_back htoken rfl
  have hword : ¬ Number.IsWord "e1" := by decide
  have hnone : Number.read? "e1" = none := by
    rw [← Option.not_isSome_iff_eq_none, hnumber]
    exact hword
  let own : Node := .leaf (.identifier "e1") 1
  have hbinds : Binds p "e1" (.number 5)
      ((Session.start .stack [] .unlimited).afterAll [.enter "main"]) _ :=
    @Binds.assignment p "e1" (.number 5) 1 1 own (.leaf (.number 5) 1) _ _ _ rfl rfl rfl
  refine ⟨p, hp, htoken, hnone, _, hbinds, _, rfl, ?_⟩
  refine hkept hword _ _ _ _ _ _ _ hbinds _ ?_ rfl _ _ _ rfl
  rintro (⟨-, v, hv⟩ | ⟨-, v, hv⟩ | ⟨hcurrent, -⟩ | ⟨-, v, hv⟩ | hnever)
  · exact absurd (Request.assign.inj hv).1 (by decide)
  · cases hv
  · -- the other function has a record of its own
    exact absurd hcurrent (by decide)
  · cases hv
  · exact hnever

end Evaluation
end Scriptlet
