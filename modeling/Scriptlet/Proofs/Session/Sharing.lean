import Scriptlet.Proofs.Session.GlobalMap
import Scriptlet.Proofs.Session.Persistence
import Scriptlet.Proofs.Session.Safety
import Scriptlet.Proofs.Simulation

/-!
The shared discipline is one map for all variables.

A session in which functions are handed a shared record, and the evaluation with one map, go the
same way.  What has to be known is which record is current: at the start of a run it may be any, but
entering a function makes the shared one current, and nothing that a program does makes any other
one current again, since a function that returns is handed the shared one as well.  So it is current
at every node that a run evaluates (`Active`), and variables are looked up and assigned nowhere
else.

The invariant also says what has been assigned so far (`Tracks`): at every moment, the halt
included, it has all that had been assigned before.  A halt at a variable that is not defined comes
with the fact that it was never assigned.

Two evaluators are compared here, so each lemma `follows_*` has one helper of the first and one of the
second.  `Follows x y r` says that from an active session and its map, `x` and `y` come to results
related by `r` and to an active session and its map again, or halt for the same reason; it is the
simulation of `Simulates` with these two states on its sides.  The second evaluator has no records, no
log and no marks.  What the first does with them is a step on one side only, and must leave what is
represented as it was (`simulates_report` and the lemmas about handing out).  The results differ as
well: the first gives a completion, the second a value, or whether a statement has returned
(`IsValue`, `Completes`).

The helpers are given the levels below, and one induction on the fuel closes the comparison.  What it
shows is held in one structure (`MapLevel`), since expressions call functions and so need the
statements, which need the expressions.

Main statement: `shared_eq_global`, for every program that is read and every session with a shared
record.
-/

namespace Scriptlet

/-- The session has a shared record with the variables of the map, and the same streams. -/
structure Session.Represents (record : Handle) (s : Session) (g : Globals) : Prop where
  shares : s.Shares record
  bindings : ∀ name, s.memory.find? record name = g.find? name
  input : s.input = g.input
  output : s.output = g.output

/-- The session is that of the map, in which all that had been assigned `before` still is. -/
structure Tracks (record : Handle) (before : List (String × Value)) (s : Session) (g : Globals) :
    Prop where
  represents : s.Represents record g
  grown : before <:+ g.assigned

/-- A function is running, so the shared record is the current one. -/
structure Active (record : Handle) (before : List (String × Value)) (s : Session) (g : Globals) :
    Prop where
  tracks : Tracks record before s g
  current : s.current = record

variable {record : Handle} {before : List (String × Value)} {s t : Session} {g : Globals}

/-! ## Sessions and maps

When a map is that of a session, and what a step on both sides does to that. -/

/-- Every session with a shared record is that of a map. -/
theorem Session.Shares.represents (h : s.Shares record) :
    s.Represents record (s.globals record) := by
  have hrecord := Array.getElem?_eq_getElem h.allocated
  refine ⟨h, fun name => ?_, rfl, rfl⟩
  unfold Memory.find? globals Globals.find?
  rw [hrecord]
  rfl

/-- The last assignment of a name is the one that is found. -/
theorem Globals.find?_assigned {name read : String} {v : Value} {assigned : List (String × Value)}
    {input : List UInt8} {output : Output} :
    (⟨(name, v) :: assigned, input, output⟩ : Globals).find? read =
      if read = name then some v else (⟨assigned, input, output⟩ : Globals).find? read := by
  show (if name = read then some v else Table.findIn read assigned) = _
  simp only [eq_comm]
  rfl

/-- A variable has no value if it has never been assigned. -/
theorem Globals.find?_eq_none_iff {name : String} :
    g.find? name = none ↔ ∀ v, (name, v) ∉ g.assigned := by
  unfold Globals.find?
  rw [Table.findIn_eq_none_iff]
  simp

/-- A step that leaves the memory and the assignments alone. -/
theorem Tracks.of_eq {g' : Globals} (h : Tracks record before s g) (hmemory : t.memory = s.memory)
    (hassigned : g'.assigned = g.assigned) (hinput : t.input = g'.input)
    (houtput : t.output = g'.output) : Tracks record before t g' := by
  obtain ⟨⟨⟨hholding, hallocated⟩, hbindings, -, -⟩, hgrown⟩ := h
  rw [← hmemory] at hholding hallocated hbindings
  rw [← hassigned] at hgrown
  unfold Globals.find? at hbindings
  rw [← hassigned] at hbindings
  exact ⟨⟨⟨hholding, hallocated⟩, hbindings, hinput, houtput⟩, hgrown⟩

/-- An assignment goes to the map. -/
theorem Active.assigned (h : Active record before s g) (name : String) (v : Value) :
    Active record before { s with memory := s.memory.insert s.current name v }
      { g with assigned := (name, v) :: g.assigned } := by
  obtain ⟨⟨⟨⟨hholding, hallocated⟩, hbindings, hinput, houtput⟩, hgrown⟩, hcurrent⟩ := h
  have hsize : record < (s.memory.insert s.current name v).records.size :=
    Nat.lt_of_lt_of_eq hallocated Memory.size_insert.symm
  refine ⟨⟨⟨⟨hholding, hsize⟩, fun read => ?_, hinput, houtput⟩, ?_⟩, hcurrent⟩
  · rw [hcurrent, Memory.find?_insert hallocated, Globals.find?_assigned, hbindings]
    simp only [true_and]
  · exact hgrown.trans (List.suffix_cons _ _)

/-- Whatever hands out the shared record and leaves the memory alone makes a function active. -/
theorem Tracks.active (h : Tracks record before s g) (handout : Memory → Handout)
    (hmemory : (handout s.memory).memory = s.memory)
    (hrecord : (handout s.memory).record = record) :
    Active record before
      ⟨(handout s.memory).memory, (handout s.memory).record, s.input, s.output,
        s.log.addAll (handout s.memory).events⟩ g :=
  ⟨h.of_eq hmemory rfl h.represents.input h.represents.output, hrecord⟩

/-- The shared record is handed out to a function that is entered, and nothing else happens. -/
theorem Memory.enter_of_shared {m : Memory} (h : m.holding = .shared record) (name : String) :
    (m.enter name).memory = m ∧ (m.enter name).record = record := by
  obtain ⟨records, holding⟩ := m
  cases h
  exact ⟨rfl, rfl⟩

/-- The shared record is handed back to whoever called, and nothing else happens. -/
theorem Memory.restore_of_shared {m : Memory} (h : m.holding = .shared record) :
    m.restore.memory = m ∧ m.restore.record = record := by
  obtain ⟨records, holding⟩ := m
  cases h
  exact ⟨rfl, rfl⟩

namespace Evaluation

open Node

variable {α β : Type}

/-- Both halt for the same reason, in a session that is that of the map.  A variable that is not
defined has never been assigned. -/
def alongMap (record : Handle) (before : List (String × Value)) :
    Terms Halt Halt Session Globals where
  excused _ := False
  excused' _ := False
  matching e e' s g := e = e' ∧ Tracks record before s g ∧
    ∀ name line, e = .fault ⟨.undefinedVariable name, line⟩ → g.find? name = none

/-- While a function is active, the evaluations go the same way, with results that are related. -/
abbrev Follows (record : Handle) (before : List (String × Value)) (x : Evaluation α)
    (y : GlobalEvaluation β) (r : α → β → Prop) : Prop :=
  Simulates (alongMap record before) (Active record before) x y r fun _ => Active record before

/-- What the evaluation of an expression comes to, and its value. -/
def IsValue (c : Completion) (v : Value) : Prop := c = .value v

/-- What a statement comes to, and the value that it returns, if it does. -/
inductive Completes : Completion → Option Value → Prop where
  | normal : Completes .normal none
  | returned (v : Value) : Completes (.returned v) (some v)

/-! ## Variables and streams -/

section Operations

variable {line : Nat} {r : α → β → Prop} {Q : α → Session → Globals → Prop}

/-- The same fault, of any other cause than a variable that is not defined. -/
theorem simulates_fault {cause : Cause} (h : ∀ name, cause ≠ .undefinedVariable name) :
    Simulates (alongMap record before) (Tracks record before) (fault line cause)
      (GlobalEvaluation.fault line cause) r Q := by
  refine .throw fun s g hs => ⟨rfl, hs, ?_⟩
  intro name own heq
  have hcause : cause = .undefinedVariable name := by
    cases heq
    rfl
  exact absurd hcause (h name)

theorem follows_fault {cause : Cause} (h : ∀ name, cause ≠ .undefinedVariable name) :
    Follows record before (fault line cause) (GlobalEvaluation.fault line cause) r := by
  intro s g hs
  exact simulates_fault h s g hs.tracks

theorem follows_pure {a : α} {b : β} (h : r a b) : Follows record before (pure a) (pure b) r :=
  .pure h fun _ _ hs => hs

/-- Both run out of fuel at the same place, as they are given the same. -/
theorem follows_outOfFuel : Follows record before (throw .outOfFuel) (throw .outOfFuel) r := by
  refine .throw fun s g hs => ⟨rfl, hs.tracks, ?_⟩
  intro name own heq
  cases heq

/-- An assignment to the shared record is one to the map. -/
theorem follows_assign {name : String} {v : Value} :
    Follows record before (assign name v) (GlobalEvaluation.assign name v) Eq :=
  .modify fun _ _ hs => hs.assigned name v

/-- A variable is found in both or in neither.  Where it is not found the map at hand does not have
it. -/
theorem follows_lookUp {name : String} :
    Follows record before (lookUp name line) (GlobalEvaluation.lookUp name line) Eq := by
  unfold lookUp GlobalEvaluation.lookUp
  cases Number.read? name with
  | some x => exact follows_pure rfl
  | none =>
    -- the two states have to be known, since the halt says something of the map at hand
    refine .get_bind_at fun s g hs => ?_
    rw [hs.current, hs.tracks.represents.bindings]
    cases hfound : g.find? name with
    | some v =>
      refine .pure rfl ?_
      rintro _ _ ⟨rfl, rfl⟩
      exact hs
    | none =>
      refine .throw ?_
      rintro _ _ ⟨rfl, rfl⟩
      refine ⟨rfl, hs.tracks, ?_⟩
      intro other own heq
      cases heq
      exact hfound

theorem follows_writeLine {text : String} :
    Follows record before (writeLine line text) (GlobalEvaluation.writeLine line text) Eq := by
  refine Simulates.bind_eq (.modifyGet (R := Active record before) ?_) fun accepted => ?_
  · intro s g hs
    have hwrite : s.output.write (text.push '\n').toUTF8 =
        g.output.write (text.push '\n').toUTF8 := by
      rw [hs.tracks.represents.output]
    refine ⟨congrArg Prod.fst hwrite, ?_, hs.current⟩
    exact hs.tracks.of_eq rfl rfl hs.tracks.represents.input (congrArg Prod.snd hwrite)
  · split
    · exact follows_pure rfl
    · exact follows_fault nofun

theorem follows_flush : Follows record before (flush line) (GlobalEvaluation.flush line) Eq := by
  refine .get_bind fun s g hs => ?_
  rw [hs.tracks.represents.output]
  split
  · exact follows_fault nofun
  · exact follows_pure rfl

theorem follows_nextLine {name : String} :
    Follows record before (nextLine line name) (GlobalEvaluation.nextLine line name) Eq := by
  refine .get_bind fun s g hs => ?_
  rw [hs.tracks.represents.input]
  obtain ⟨bytes, rest⟩ := splitLine g.input
  dsimp only
  split
  · exact follows_fault nofun
  · have hadvanced : Active record before { s with input := rest } { g with input := rest } :=
      ⟨hs.tracks.of_eq rfl rfl rfl hs.tracks.represents.output, hs.current⟩
    refine Simulates.bind_eq (.set hadvanced) fun _ => ?_
    cases textOfBytes? bytes with
    | some text => exact follows_pure rfl
    | none => exact follows_fault nofun

end Operations

/-! ## Records, which there are none of on the other side

Steps of the session alone. -/

section Records

variable {x : Evaluation α} {y : GlobalEvaluation β} {r : α → β → Prop}
  {Q : α → Session → Globals → Prop} {P : Session → Globals → Prop}

/-- A report to the log is a step of the session alone. -/
theorem simulates_report {e : Event} (hP : ∀ s g, P s g → P { s with log := s.log.add e } g)
    (hx : Simulates (alongMap record before) P x y r Q) :
    Simulates (alongMap record before) P (report e >>= fun _ => x) y r Q :=
  .modify_bind hP hx

/-- Entering a function makes the shared record current, whichever was. -/
theorem simulates_enter {name : String}
    (hx : Simulates (alongMap record before) (Active record before) x y r Q) :
    Simulates (alongMap record before) (Tracks record before) (enter name >>= fun _ => x) y
      r Q := by
  refine .modify_bind (R := Active record before) ?_ hx
  intro s g hs
  have hentered := Memory.enter_of_shared hs.represents.shares.holding name
  exact hs.active (·.enter name) hentered.1 hentered.2

/-- Leaving a function restores nothing. -/
theorem simulates_resume
    (hx : Simulates (alongMap record before) (Active record before) x y r Q) :
    Simulates (alongMap record before) (Active record before) (resume >>= fun _ => x) y r Q := by
  refine .modify_bind (R := Active record before) ?_ hx
  intro s g hs
  have hresumed := Memory.restore_of_shared hs.tracks.represents.shares.holding
  exact hs.tracks.active Memory.restore hresumed.1 hresumed.2

end Records

/-! ## Expressions -/

section Parts

variable {eval : Evaluator} {value : Node → GlobalEvaluation Value}
  {execute : Node → GlobalEvaluation (Option Value)} {line : Nat}

/-- The value of a part, which is evaluated below. -/
theorem follows_valueOf {e : Node} (h : Follows record before (eval e) (value e) IsValue) :
    Follows record before (valueOf eval e) (value e) Eq := by
  have hbind : Follows record before (valueOf eval e) (value e >>= pure) Eq := by
    refine h.bind ?_
    rintro c v rfl
    exact follows_pure rfl
  rw [bind_pure] at hbind
  exact hbind

/-- A value, in the form in which an expression comes to it. -/
theorem follows_asValue {x : Evaluation Value} {y : GlobalEvaluation Value}
    (h : Follows record before x y Eq) :
    Follows record before
      (do
        let v ← x
        pure (.value v)) y IsValue := by
  have hbind : Follows record before (x >>= fun v => pure (.value v)) (y >>= pure) IsValue := by
    refine h.bind_eq fun v => ?_
    exact follows_pure rfl
  rw [bind_pure] at hbind
  exact hbind

/-- The values of all arguments, from left to right in both. -/
theorem follows_valuesOf {nodes : List Node}
    (h : ∀ node ∈ nodes, Follows record before (eval node) (value node) IsValue) :
    Follows record before (valuesOf eval nodes) (nodes.mapM value) Eq := by
  induction nodes with
  | nil => exact follows_pure rfl
  | cons node nodes ih =>
    obtain ⟨hnode, hnodes⟩ := List.forall_mem_cons.1 h
    rw [List.mapM_cons]
    refine (follows_valueOf hnode).bind_eq fun v => ?_
    refine (ih hnodes).bind_eq fun vs => ?_
    exact follows_pure rfl

/-- The number of an operand, or the same fault. -/
theorem follows_numberOf {operator : String} {e : Node}
    (h : Follows record before (eval e) (value e) IsValue) :
    Follows record before (numberOf eval operator e) (GlobalEvaluation.numberOf value operator e)
      Eq := by
  refine (follows_valueOf h).bind_eq fun v => ?_
  cases v.asNumber? with
  | some x => exact follows_pure rfl
  | none => exact follows_fault nofun

theorem follows_operation {op : Operator} {left right : Node}
    (hleft : Follows record before (eval left) (value left) IsValue)
    (hright : Follows record before (eval right) (value right) IsValue) :
    Follows record before (operation eval op (.binary (.operator op) left right line))
      (GlobalEvaluation.operation value op left right) Eq := by
  rw [operation_binary]
  unfold GlobalEvaluation.operation
  split
  · refine (follows_valueOf hleft).bind_eq fun a => ?_
    refine (follows_valueOf hright).bind_eq fun b => ?_
    exact follows_pure rfl
  · refine (follows_numberOf hleft).bind_eq fun x => ?_
    refine (follows_numberOf hright).bind_eq fun y => ?_
    exact follows_pure rfl

/-- A condition is a comparison of two numbers in both. -/
theorem follows_holds {test : Node} (h : IsCondition test)
    (hvalue : ∀ e, IsExpression e → Follows record before (eval e) (value e) IsValue) :
    Follows record before (holds eval test) (GlobalEvaluation.holds value test) Eq := by
  cases h with
  | expression h =>
    have hplain : GlobalEvaluation.holds value test = (do
        let x ← GlobalEvaluation.numberOf value "condition" test
        pure (x != 0)) := by
      cases h <;> rfl
    rw [holds_of_isExpression h, hplain]
    refine (follows_numberOf (hvalue test h)).bind_eq fun x => ?_
    exact follows_pure rfl
  | comparison hleft hright =>
    rw [holds_comparison]
    refine (follows_numberOf (hvalue _ hleft)).bind_eq fun x => ?_
    refine (follows_numberOf (hvalue _ hright)).bind_eq fun y => ?_
    exact follows_pure rfl

/-! ## Statements -/

/-- A statement, and what comes after it if it does not return. -/
theorem follows_followed {x z : Evaluation Completion} {y w : GlobalEvaluation (Option Value)}
    (hx : Follows record before x y Completes) (hz : Follows record before z w Completes) :
    Follows record before
      (do
        match ← x with
        | .returned v => pure (.returned v)
        | _ => z)
      (do
        match ← y with
        | some v => pure (some v)
        | none => w) Completes := by
  refine hx.bind ?_
  intro c o hc
  cases hc with
  | normal => exact hz
  | returned v => exact follows_pure (.returned v)

theorem follows_sequence {nodes : List Node}
    (h : ∀ node ∈ nodes, Follows record before (eval node) (execute node) Completes) :
    Follows record before (sequence eval nodes) (GlobalEvaluation.inOrder execute nodes)
      Completes := by
  induction nodes with
  | nil => exact follows_pure .normal
  | cons node nodes ih =>
    obtain ⟨hnode, hnodes⟩ := List.forall_mem_cons.1 h
    exact follows_followed hnode (ih hnodes)

/-- A loop, with the same bound on its rounds in both. -/
theorem follows_loop {test : Evaluation Bool} {test' : GlobalEvaluation Bool}
    {body : Evaluation Completion} {body' : GlobalEvaluation (Option Value)}
    (htest : Follows record before test test' Eq)
    (hbody : Follows record before body body' Completes) (n : Nat) :
    Follows record before (loop test body n) (GlobalEvaluation.repeatWhile test' body' n)
      Completes := by
  induction n with
  | zero => exact follows_outOfFuel
  | succ n ih =>
    refine htest.bind_eq fun truth => ?_
    split
    · exact follows_followed hbody ih
    · exact follows_pure .normal

/-! ## Calls -/

theorem follows_assignAll {parameters : List Node} {arguments : List Value}
    (h : ∀ parameter ∈ parameters, IsName parameter) :
    Follows record before (assignAll parameters arguments)
      (GlobalEvaluation.assignAll parameters arguments) Eq := by
  induction parameters generalizing arguments with
  | nil => exact follows_pure rfl
  | cons parameter parameters ih =>
    obtain ⟨hname, hnames⟩ := List.forall_mem_cons.1 h
    cases arguments with
    | nil => cases hname; exact follows_pure rfl
    | cons argument arguments =>
      cases hname
      rw [assignAll_cons]
      exact follows_assign.bind_eq fun _ => ih hnames


/-- A call of a function that is declared. -/
theorem globalInvoke_of_function? {p : Program} {name : String} {label : Label}
    {parameters : List Node} {body : Node} {arguments : List Value} {own : Nat}
    (h : p.function? name = some ⟨label, parameters ++ [body], own⟩) :
    GlobalEvaluation.invoke p execute name arguments line =
      if parameters.length ≠ arguments.length then
        GlobalEvaluation.fault line (.parameterCount name parameters.length arguments.length)
      else (do
        GlobalEvaluation.assignAll parameters arguments
        let returned ← execute body
        pure (returned.getD .none)) := by
  unfold GlobalEvaluation.invoke
  rw [h]
  have hbody : (parameters ++ [body]).getLast? = some body := List.getLast?_concat
  have hparameters : (parameters ++ [body]).dropLast = parameters := List.dropLast_concat
  dsimp only
  rewrite [hbody, hparameters]
  rfl

/-- A call may start with any record, and ends with the shared one. -/
theorem simulates_invoke {p : Program} (hp : p.WellFormed) {name : String} {arguments : List Value}
    (hbody : ∀ block, IsBlock block →
      Follows record before (eval block) (execute block) Completes) :
    Simulates (alongMap record before) (Tracks record before) (invoke p eval name arguments line)
      (GlobalEvaluation.invoke p execute name arguments line) Eq fun _ => Active record before := by
  cases hf : p.function? name with
  | none =>
    unfold invoke GlobalEvaluation.invoke
    rw [hf]
    exact simulates_fault nofun
  | some function =>
    cases hp.functions _ (mem_of_function? hf) with
    | @function _ _ brace list last parameters nodes hparameters hnodes =>
      rw [invoke_of_function? hf, globalInvoke_of_function? hf]
      split
      · exact simulates_fault nofun
      · -- up to here any record may be current, from here on it is the shared one
        refine simulates_report (fun s g hs => ?_) (simulates_enter ?_)
        · exact hs.of_eq rfl rfl hs.represents.input hs.represents.output
        · refine (follows_assignAll hparameters).bind_eq fun _ => ?_
          refine (hbody _ (isBlock_body brace list last hnodes)).bind fun c o hc => ?_
          cases hc with
          -- no body of a function that is read ends like this, but nothing depends on that
          | normal => exact simulates_resume (follows_pure rfl)
          | returned v => exact follows_pure rfl

end Parts

/-! ## All levels -/

/-- What holds of the evaluations with a given fuel, while a function is active. -/
structure MapLevel (p : Program) (record : Handle) (before : List (String × Value)) (n : Nat) :
    Prop where
  expression : ∀ e, IsExpression e →
    Follows record before (evaluate p n e) (GlobalEvaluation.value p n e) IsValue
  statement : ∀ t, IsStatementOrList t →
    Follows record before (evaluate p n t) (GlobalEvaluation.execute p n t) Completes

variable {p : Program} {n : Nat}

/-- An expression, by the forms that there are; a call is where the other half of the level is
used. -/
theorem MapLevel.expression_succ (hp : p.WellFormed) (hn : MapLevel p record before n) {e : Node}
    (h : IsExpression e) :
    Follows record before (evaluate p (n + 1) e) (GlobalEvaluation.value p (n + 1) e) IsValue := by
  cases h with
  | number => exact follows_pure rfl
  | text => exact follows_pure rfl
  | identifier => exact follows_asValue follows_lookUp
  | operator hleft hright =>
    rw [evaluate_succ, step_operator]
    exact follows_asValue (follows_operation (hn.expression _ hleft) (hn.expression _ hright))
  | call h =>
    rw [evaluate_succ, step_call]
    -- what is below: the arguments, and the body of the function that is called
    have harguments := fun node hmem => hn.expression node (h node hmem)
    have hbody := fun block hblock => hn.statement block (.statement (.block hblock))
    refine (follows_valuesOf harguments).bind_eq fun values => follows_asValue ?_
    refine (simulates_invoke hp hbody).mono ?_ ?_ ?_
    · exact fun _ _ hs => hs.tracks
    · exact fun _ _ heq => heq
    · exact fun _ _ _ hs => hs

/-- A statement, by the forms that there are. -/
theorem MapLevel.statement_succ (hn : MapLevel p record before n) {t : Node} (h : IsStatement t) :
    Follows record before (evaluate p (n + 1) t) (GlobalEvaluation.execute p (n + 1) t)
      Completes := by
  have hblock : ∀ {block}, IsBlock block → Follows record before (evaluate p n block)
      (GlobalEvaluation.execute p n block) Completes :=
    fun h => hn.statement _ (.statement (.block h))
  cases h with
  | assign h =>
    refine (follows_valueOf (hn.expression _ h)).bind_eq fun v => ?_
    exact follows_assign.bind_eq fun _ => follows_pure .normal
  | write h =>
    refine (follows_valueOf (hn.expression _ h)).bind_eq fun v => ?_
    exact follows_writeLine.bind_eq fun _ => follows_pure .normal
  | read =>
    refine follows_nextLine.bind_eq fun text => ?_
    exact follows_assign.bind_eq fun _ => follows_pure .normal
  | whileLoop h hbody => exact follows_loop (follows_holds h hn.expression) (hblock hbody) n
  | ifThen h hconsequence =>
    refine (follows_holds h hn.expression).bind_eq fun truth => ?_
    split
    · exact hblock hconsequence
    · exact follows_pure .normal
  | ifThenElse h hconsequence halternative =>
    refine (follows_holds h hn.expression).bind_eq fun truth => ?_
    split
    · exact hblock hconsequence
    · exact hblock halternative
  | returnValue h =>
    refine (follows_valueOf (hn.expression _ h)).bind_eq fun v => ?_
    -- the record that is resumed is the one that has been current all along
    refine simulates_resume (simulates_report (fun s g hs => ?_) (follows_pure (.returned v)))
    have hrepresents := hs.tracks.represents
    exact ⟨hs.tracks.of_eq rfl rfl hrepresents.input hrepresents.output, hs.current⟩
  | block h =>
    cases h with
    | statements h => exact hn.statement _ (.statements h)

/-- **The invariant.**  It holds with any fuel. -/
theorem mapLevel (hp : p.WellFormed) (n : Nat) : MapLevel p record before n := by
  induction n with
  | zero =>
    constructor
    · exact fun _ _ => follows_outOfFuel
    · exact fun _ _ => follows_outOfFuel
  | succ n ih =>
    constructor
    · exact fun e h => ih.expression_succ hp h
    · intro t h
      cases h with
      | statement h => exact ih.statement_succ h
      | statements h =>
        exact follows_sequence fun node hmem => ih.statement node (.statement (h node hmem))

/-- A run starts with whatever record is current. -/
theorem simulates_run (hp : p.WellFormed) (fuel : Nat) :
    Simulates (alongMap record before) (Tracks record before) (run p fuel)
      (GlobalEvaluation.run p fuel) Eq fun _ => Active record before := by
  unfold run GlobalEvaluation.run
  cases hf : p.function? entryPoint with
  | none =>
    refine .throw fun s g hs => ⟨rfl, hs, ?_⟩
    intro name line heq
    cases heq
  | some function =>
    have hbody : ∀ block, IsBlock block → Follows record before (evaluate p fuel block)
        (GlobalEvaluation.execute p fuel block) Completes :=
      fun block hblock => (mapLevel hp fuel).statement block (.statement (.block hblock))
    refine (simulates_invoke hp hbody).bind_eq fun v => ?_
    exact follows_flush.bind_eq fun _ => follows_pure rfl

end Evaluation

/-! ## Programs

From well-formed programs to those that are read. -/

namespace Program

open Evaluation

/-- A run in a session and one with a map agree: in the value or the fault, in the variables of the
shared record, in what is left of the input, and in the output.  What had been assigned before still
is, and if the run ends at a variable that is not defined, it has not been assigned, neither before
the run nor in it. -/
structure AgreesWithMap (p : Program) (fuel : Nat) (record : Handle) (s : Session) (g : Globals) :
    Prop where
  outcome : (p.runIn fuel s).1 = (p.runGlobally fuel g).1
  represents : (p.runIn fuel s).2.Represents record (p.runGlobally fuel g).2
  grown : g.assigned <:+ (p.runGlobally fuel g).2.assigned
  undefined : ∀ name line, (p.runIn fuel s).1 = .error (.fault ⟨.undefinedVariable name, line⟩) →
    ∀ v, (name, v) ∉ (p.runGlobally fuel g).2.assigned

/-- The sessions that come after `s`, by runs of a program and by evaluations of single nodes,
whatever each of them ended with. -/
inductive Later (p : Program) (s : Session) : Session → Prop where
  | refl : Later p s s
  | run {t : Session} (h : Later p s t) (fuel : Nat) : Later p s (p.runIn fuel t).2
  | evaluate {t : Session} (h : Later p s t) (fuel : Nat) (node : Node) :
      Later p s ((evaluate p fuel node).sessionAfter t)

variable {p : Program}

/-- The session after a run, whichever way it ends. -/
theorem runIn_snd (fuel : Nat) (s : Session) :
    (p.runIn fuel s).2 = (Evaluation.run p fuel).sessionAfter s := by
  unfold runIn Evaluation.sessionAfter
  split <;> next hrun => rw [hrun]

/-- No variable is ever lost. -/
theorem Later.retains {s t : Session} (h : p.Later s t) : s.Retains t := by
  induction h with
  | refl => exact .of_eq rfl
  | run h fuel ih =>
    rw [runIn_snd]
    exact ih.trans (retains_run fuel _)
  | evaluate h fuel node ih => exact ih.trans (retains_evaluate fuel node _)

/-- The two runs, side by side. -/
theorem exists_runs (hp : p.WellFormed) {record : Handle} {s : Session} {g : Globals}
    (hs : s.Represents record g) (fuel : Nat) :
    ∃ outcome t g', p.runIn fuel s = (outcome, t) ∧ p.runGlobally fuel g = (outcome, g') ∧
      Tracks record g.assigned t g' ∧
      ∀ name line, outcome = .error (.fault ⟨.undefinedVariable name, line⟩) →
        g'.find? name = none := by
  -- what had been assigned before the run is all that the map has at its start
  have htracks : Tracks record g.assigned s g := ⟨hs, List.suffix_refl _⟩
  have hpaired := simulates_run hp fuel s g htracks
  unfold runGlobally
  rcases hpaired.cases (fun _ => id) (fun _ => id) with
    ⟨v, t, w, g', hx, hy, rfl, hactive⟩ | ⟨e, t, e', g', hx, hy, rfl, htracks', hundefined⟩
  · rw [hy]
    refine ⟨.ok v, t, g', runIn_of_ok hx, rfl, hactive.tracks, ?_⟩
    intro name line hfault
    cases hfault
  · rw [hy]
    refine ⟨.error e, t, g', runIn_of_error hx, rfl, htracks', ?_⟩
    intro name line hfault
    exact hundefined name line (Except.error.inj hfault)

/-- Any map that represents the session at the start will do. -/
theorem agreesWithMap (hp : p.WellFormed) {record : Handle} {s : Session} {g : Globals}
    (hs : s.Represents record g) (fuel : Nat) : p.AgreesWithMap fuel record s g := by
  obtain ⟨outcome, t, g', hrun, hglobal, htracks, hundefined⟩ := exists_runs hp hs fuel
  constructor
  · rw [hrun, hglobal]
  · rw [hrun, hglobal]
    exact htracks.represents
  · rw [hglobal]
    exact htracks.grown
  · intro name line hfault
    rw [hrun] at hfault
    rw [hglobal]
    exact Globals.find?_eq_none_iff.1 (hundefined name line hfault)

/-- A run does not end at a variable that the shared record had at its start. -/
theorem runIn_ne_undefined (hp : p.WellFormed) {record : Handle} {s : Session}
    (hs : s.Shares record) {name : String}
    (hname : (s.memory.find? record name).isSome) (fuel : Nat) (line : Option Nat) :
    (p.runIn fuel s).1 ≠ .error (.fault ⟨.undefinedVariable name, line⟩) := by
  intro hfault
  have hrepresents := hs.represents
  have hagrees := agreesWithMap hp hrepresents fuel
  have hnever : ∀ v, (name, v) ∉ (s.globals record).assigned :=
    fun v hmem => hagrees.undefined name line hfault v (hagrees.grown.subset hmem)
  rw [hrepresents.bindings name, Globals.find?_eq_none_iff.2 hnever] at hname
  cases hname

/-- **The shared record is one map for all variables.**  Take a program that is read, and any
session with a shared record: whichever record is current, whatever the variables, and whatever was
run before.

* There is a map that the session represents.
* Whatever map it represents, a run in the session agrees with a run with the map, with any fuel.
* Whatever is done with the program from then on, with whatever outcome, the record stays shared and
  never loses a variable, and no run ever ends at a variable that it had. -/
theorem shared_eq_global {source : String} (h : parse source = .ok p) {record : Handle}
    {s : Session} (hs : s.Shares record) :
    (∃ g, s.Represents record g) ∧
      (∀ g, s.Represents record g → ∀ fuel, p.AgreesWithMap fuel record s g) ∧
      ∀ t, p.Later s t → t.Shares record ∧
        ∀ name, (s.memory.find? record name).isSome →
          (t.memory.find? record name).isSome ∧
            ∀ fuel line, (p.runIn fuel t).1 ≠ .error (.fault ⟨.undefinedVariable name, line⟩) := by
  have hp := wellFormed_of_parse h
  refine ⟨⟨_, hs.represents⟩, fun g hg fuel => agreesWithMap hp hg fuel, ?_⟩
  intro t ht
  have hshares := ht.retains.shared record hs
  refine ⟨hshares, fun name hname => ?_⟩
  have hbound := ht.retains.bound record name hname
  exact ⟨hbound, fun fuel line => runIn_ne_undefined hp hshares hbound fuel line⟩

/-- It holds of a program with a variable that another function has assigned, which then finds no
input, in a new session, where the shared record is not the current one. -/
theorem shared_eq_global_starved :
    ∃ p, parse "fun f(a) { b = a } fun main() { x = f(1); write(b); read(y) }" = .ok p ∧
      (Session.start .shared [] .unlimited).Shares 0 ∧
      (∃ g, (Session.start .shared [] .unlimited).Represents 0 g) ∧
      (∀ g, (Session.start .shared [] .unlimited).Represents 0 g → ∀ fuel,
        p.AgreesWithMap fuel 0 (.start .shared [] .unlimited) g) ∧
      ∀ t, p.Later (.start .shared [] .unlimited) t → t.Shares 0 ∧
        ∀ name, ((Session.start .shared [] .unlimited).memory.find? 0 name).isSome →
          (t.memory.find? 0 name).isSome ∧
            ∀ fuel line, (p.runIn fuel t).1 ≠ .error (.fault ⟨.undefinedVariable name, line⟩) := by
  have hok : (parse "fun f(a) { b = a } fun main() { x = f(1); write(b); read(y) }").isOk := by
    decide +kernel
  obtain ⟨p, hp⟩ := exists_of_isOk hok
  have hshares : (Session.start .shared [] .unlimited).Shares 0 := ⟨rfl, Nat.zero_lt_two⟩
  exact ⟨p, hp, hshares, shared_eq_global hp hshares⟩

/-- One function reads a variable that another one returns.  The latest assignment comes first. -/
example :
    (parse "fun f() { read(b) } fun main() { x = f(); return b }").toOption.map (fun p =>
        ((p.runGlobally 20 ⟨[], [97, 10], .unlimited⟩).1.toOption,
          (p.runGlobally 20 ⟨[], [97, 10], .unlimited⟩).2.assigned.map Prod.fst)) =
      some (some (.text "a"), ["x", "b"]) := by decide +kernel

end Program
end Scriptlet
