import Scriptlet.Proofs.Session.Dialogue
import Scriptlet.Proofs.Tree.Names

/-!
What a program may ask, and where it may halt.

The dialogue of a program keeps to the program (`KeepsTo`): it visits nodes of its tree, writes at
write nodes and reads at read nodes of the tree, gives what it has read to the name it was read for
before it does anything else, and halts of its own accord only at a node.  This holds for every tree,
well-formed or not.

Requests fall into three groups.  Most are silent: they cannot be refused, and they neither look at
the input and the output nor touch them (`exists_answer_of_silent`).  Writing and flushing are about
the output alone, reading about the input alone.  `KeepsTo` has one rule for each, so what is proved
by induction on it has one case for each.

The rule for reading holds two requests together, the line and the assignment of it.  That a line
which has been read is bound before anything else happens is what the statements about consumed input
need, and nothing after the fact could recover it.

A halt is placed (`Halt.PlacedIn`) if its fault is on the line of a node.  A halt can come from the
program, and then the rule for `halt` asks for the node; or a request is refused, and then the request
is on the line of its node (`placedIn_of_refusal`).  The one fault that has no node is that there is
no entry point.

These rules are for trees of any shape, so there is no judgement here as for well-formed programs: a
malformed node halts, which keeps to the program too.  The proof goes over the helpers of a level one
by one, each with the node that it is about among the nodes of the program, and an induction on the
fuel closes it.
-/

namespace Scriptlet

/-! ## Requests by group

How a session answers, depending on what the request is about. -/

namespace Request

/-- A request that concerns neither the input nor the output. -/
def Silent : Request → Prop
  | write _ _ => False
  | read _ _ => False
  | flush _ => False
  | _ => True

/-- A request for a line of the input. -/
def isRead : Request → Bool
  | read _ _ => true
  | _ => false

theorem isRead_of_silent {q : Request} (h : q.Silent) : q.isRead = false := by
  cases q with
  | read node name => cases h
  | _ => rfl

/-- A silent request is answered, and the answer does not depend on the input and the output. -/
theorem exists_answer_of_silent {q : Request} (h : q.Silent) (s : Session) :
    ∃ reply t, q.answer s = .ok reply t ∧ t.input = s.input ∧ t.output = s.output ∧
      (∀ input, q.answer { s with input := input } = .ok reply { t with input := input }) ∧
      ∀ output, q.answer { s with output := output } = .ok reply { t with output := output } := by
  obtain ⟨memory, current, input, output, log⟩ := s
  cases q with
  | write node text => cases h
  | read node name => cases h
  | flush line => cases h
  | _ => exact ⟨_, _, rfl, rfl, rfl, fun _ => rfl, fun _ => rfl⟩

section Answers

variable {node : Node} {text name : String} {line : Nat} {s : Session} {output : Output}
  {bytes rest : List UInt8}

/-- A line that is accepted changes the output alone. -/
theorem answer_write_of_accepted
    (h : s.output.write (text.push '\n').toUTF8 = (true, output)) :
    (write node text).answer s = .ok () { s with output := output } := by
  obtain ⟨memory, current, input, stream, log⟩ := s
  show (Evaluation.writeLine node.line text) _ = _
  unfold Evaluation.writeLine
  rw [Evaluation.modifyGet_bind_apply]
  simp only [h]
  rfl

/-- A line that is refused is a fault at the node that writes it. -/
theorem answer_write_of_refused
    (h : s.output.write (text.push '\n').toUTF8 = (false, output)) :
    (write node text).answer s =
      .error (.fault (.onLine node.line Evaluation.brokenPipe)) { s with output := output } := by
  obtain ⟨memory, current, input, stream, log⟩ := s
  show (Evaluation.writeLine node.line text) _ = _
  unfold Evaluation.writeLine
  rw [Evaluation.modifyGet_bind_apply]
  simp only [h]
  rfl

/-- An output that takes everything has nothing to say about being passed on. -/
theorem answer_flush_of_not (h : s.output.flushFails = false) :
    (flush line).answer s = .ok () s := by
  show (if s.output.flushFails = true then _ else _ : Evaluation Unit) s = _
  rw [h]
  rfl

/-- An output that cannot be passed on is a fault, on the line that is given. -/
theorem answer_flush_of (h : s.output.flushFails = true) :
    (flush line).answer s = .error (.fault (.onLine line Evaluation.brokenPipe)) s := by
  show (if s.output.flushFails = true then _ else _ : Evaluation Unit) s = _
  rw [h]
  rfl

/-- At the end of the input nothing is taken. -/
theorem answer_read_of_nil (h : s.input = []) :
    (read node name).answer s = .error (.fault (.onLine node.line (.inputExhausted name))) s := by
  obtain ⟨memory, current, input, output, log⟩ := s
  cases h
  rfl

/-- What becomes of a line that is there. -/
theorem answer_read (h : splitLine s.input = (bytes, rest)) (hne : bytes ≠ []) :
    (read node name).answer s =
      match textOfBytes? bytes with
      | some text => .ok (lineContent text) { s with input := rest }
      | none => .error (.fault (.onLine node.line Evaluation.invalidText)) { s with input := rest } := by
  show (Evaluation.nextLine node.line name) s = _
  unfold Evaluation.nextLine
  rw [Evaluation.get_bind_apply, h]
  dsimp only
  rw [if_neg hne, Evaluation.set_bind_apply]
  cases textOfBytes? bytes <;> rfl

/-- A line of text is taken from the input. -/
theorem answer_read_of_text (h : splitLine s.input = (bytes, rest)) (hne : bytes ≠ [])
    (htext : textOfBytes? bytes = some text) :
    (read node name).answer s = .ok (lineContent text) { s with input := rest } := by
  rw [answer_read h hne, htext]

/-- A line that is no text is taken all the same. -/
theorem answer_read_of_none (h : splitLine s.input = (bytes, rest)) (hne : bytes ≠ [])
    (htext : textOfBytes? bytes = none) :
    (read node name).answer s =
      .error (.fault (.onLine node.line Evaluation.invalidText)) { s with input := rest } := by
  rw [answer_read h hne, htext]

end Answers

end Request

/-! ## Places in the program

Where a request comes from, and where a halt is put down to. -/

/-- The request is made at a node of the program that stands for it. -/
def Request.AskedIn (p : Program) : Request → Prop
  | mark (.visit node) => node ∈ p.root.nodes
  | write node _ => node ∈ p.root.nodes ∧ node.label = .write
  | read node name => node ∈ p.root.nodes ∧ node.label = .read ∧ node.target? = some name
  | flush line => ∃ node ∈ p.root.nodes, node.line = line
  | _ => True

/-- The cause can come from a node. -/
def Cause.AtNode (cause : Cause) : Prop := cause.stage = .running ∧ cause ≠ .missingMain

/-- A fault is on the line of a node of the program, or there is no function to start in. -/
def Halt.PlacedIn (p : Program) (e : Halt) : Prop :=
  ∀ error, e = .fault error →
    (error = ⟨.missingMain, none⟩ ∧ p.function? entryPoint = none) ∨
      ∃ node ∈ p.root.nodes, ∃ cause, error = .onLine node.line cause ∧ cause.AtNode

/-- A fault on the line of a node of the program is placed. -/
theorem Halt.placedIn_of_mem {p : Program} {node : Node} {cause : Cause}
    (hnode : node ∈ p.root.nodes) (hcause : cause.AtNode) :
    (Halt.fault (.onLine node.line cause)).PlacedIn p := by
  intro error herror
  cases herror
  exact Or.inr ⟨node, hnode, cause, rfl, hcause⟩

/-- The line that a request is made on, for those that can be refused. -/
def Request.line? : Request → Option Nat
  | write node _ => some node.line
  | read node _ => some node.line
  | flush line => some line
  | _ => none

/-- A request that is refused is a fault on its line. -/
theorem Request.fault_of_refusal {q : Request} {s t : Session} {e : Halt}
    (h : q.answer s = .error e t) :
    ∃ line cause, q.line? = some line ∧ e = .fault (.onLine line cause) ∧ cause.AtNode := by
  -- only output and input can refuse
  cases q with
  | write node text =>
    rcases hwrite : s.output.write (text.push '\n').toUTF8 with ⟨accepted, output⟩
    cases accepted with
    | true =>
      rw [answer_write_of_accepted hwrite] at h
      cases h
    | false =>
      rw [answer_write_of_refused hwrite] at h
      cases h
      exact ⟨_, _, rfl, rfl, rfl, by simp [Evaluation.brokenPipe]⟩
  | read node name =>
    by_cases hinput : s.input = []
    · rw [answer_read_of_nil hinput] at h
      cases h
      exact ⟨_, _, rfl, rfl, rfl, by simp⟩
    · have hne : (splitLine s.input).1 ≠ [] := fun hnil => hinput (splitLine_fst_eq_nil_iff.1 hnil)
      rw [answer_read rfl hne] at h
      split at h
      · cases h
      · cases h
        exact ⟨_, _, rfl, rfl, rfl, by simp [Evaluation.invalidText]⟩
  | flush line =>
    cases hflush : s.output.flushFails with
    | false =>
      rw [answer_flush_of_not hflush] at h
      cases h
    | true =>
      rw [answer_flush_of hflush] at h
      cases h
      exact ⟨_, _, rfl, rfl, rfl, by simp [Evaluation.brokenPipe]⟩
  | _ => cases h

/-- A request that is refused is refused at its node. -/
theorem Request.placedIn_of_refusal {p : Program} {q : Request} {s t : Session} {e : Halt}
    (hasked : q.AskedIn p) (h : q.answer s = .error e t) : e.PlacedIn p := by
  obtain ⟨line, cause, hline, rfl, hcause⟩ := fault_of_refusal h
  cases q with
  | write node text =>
    cases hline
    exact Halt.placedIn_of_mem hasked.1 hcause
  | read node name =>
    cases hline
    exact Halt.placedIn_of_mem hasked.1 hcause
  | flush =>
    cases hline
    obtain ⟨node, hnode, rfl⟩ := hasked
    exact Halt.placedIn_of_mem hnode hcause
  | _ => cases hline

/-- There was no input left. -/
def Halt.exhausted : Halt → Bool
  | .fault ⟨.inputExhausted _, _⟩ => true
  | _ => false

/-- The outcome is that there was no input left. -/
def exhausted {α : Type} : Except Halt α → Bool
  | .error e => e.exhausted
  | .ok _ => false

namespace Dialogue

variable {α β : Type} {p : Program}

/-- The dialogue asks and halts only where the program has a node for it, and gives what it reads to
the name it reads it for. -/
inductive KeepsTo (p : Program) : Dialogue α → Prop where
  | done {a : α} : KeepsTo p (done a)
  | halt {e : Halt} (h : e.PlacedIn p) (hnot : e.exhausted = false) : KeepsTo p (halt e)
  | silent {q : Request} {next : q.Reply → Dialogue α} (hq : q.Silent) (hasked : q.AskedIn p)
      (hnext : ∀ reply, KeepsTo p (next reply)) : KeepsTo p (ask q next)
  | write {node : Node} {text : String} {next : Unit → Dialogue α}
      (hasked : (Request.write node text).AskedIn p) (hnext : KeepsTo p (next ())) :
      KeepsTo p (ask (.write node text) next)
  | read {node : Node} {name : String} {next : String → Dialogue α}
      (hasked : (Request.read node name).AskedIn p) (hnext : ∀ text, KeepsTo p (next text)) :
      KeepsTo p (ask (.read node name) fun text =>
        ask (.assign name (.ofText text)) fun _ => next text)
  | flush {line : Nat} {next : Unit → Dialogue α} (hasked : (Request.flush line).AskedIn p)
      (hnext : KeepsTo p (next ())) : KeepsTo p (ask (.flush line) next)

namespace KeepsTo

/-- One dialogue after another, by induction on the first. -/
theorem bind {d : Dialogue α} {f : α → Dialogue β} (hd : d.KeepsTo p)
    (hf : ∀ a, (f a).KeepsTo p) : (d >>= f).KeepsTo p := by
  induction hd with
  | done => exact hf _
  | halt h hnot => exact .halt h hnot
  | silent hq hasked hnext ih => exact .silent hq hasked ih
  | write hasked hnext ih => exact .write hasked ih
  | read hasked hnext ih => exact .read hasked ih
  | flush hasked hnext ih => exact .flush hasked ih

/-- A fault of a node is placed; that there is no input left is not for the program to say. -/
theorem fault {node : Node} {cause : Cause} (hnode : node ∈ p.root.nodes) (hcause : cause.AtNode)
    (hnot : ∀ name, cause ≠ .inputExhausted name) :
    (fault node.line cause : Dialogue α).KeepsTo p := by
  refine .halt (Halt.placedIn_of_mem hnode hcause) ?_
  cases cause with
  | inputExhausted name => exact absurd rfl (hnot name)
  | _ => rfl

/-- A node of the wrong shape is no fault, so nothing is asked of its place. -/
theorem malformed {m : Malformation} : (Dialogue.halt (.malformed m) : Dialogue α).KeepsTo p :=
  .halt (by simp [Halt.PlacedIn]) rfl

theorem outOfFuel : (Dialogue.halt .outOfFuel : Dialogue α).KeepsTo p :=
  .halt (by simp [Halt.PlacedIn]) rfl

/-- A silent request by itself. -/
theorem request {q : Request} (hq : q.Silent) (hasked : q.AskedIn p) : (request q).KeepsTo p :=
  .silent hq hasked fun _ => .done

theorem find {name : String} : (find name).KeepsTo p := request trivial trivial

theorem assign {name : String} {v : Value} : (assign name v).KeepsTo p := request trivial trivial

theorem report {e : Event} : (report e).KeepsTo p := request trivial trivial

theorem enter {function : String} : (enter function).KeepsTo p := request trivial trivial

theorem resume : resume.KeepsTo p := request trivial trivial

/-- The mark of a call stands for no node. -/
theorem call {name : String} {arguments : List Value} :
    (mark (.call name arguments)).KeepsTo p := request trivial trivial

theorem yield {v : Value} : (mark (.yield v)).KeepsTo p := request trivial trivial

/-- The mark of a visit stands for the node that is visited. -/
theorem visit {node : Node} (hnode : node ∈ p.root.nodes) : (mark (.visit node)).KeepsTo p :=
  request trivial hnode

end KeepsTo

/-! ## The parts of a node -/

/-- The children of a node of the program are nodes of the program. -/
theorem mem_nodes_child {node child : Node} (hnode : node ∈ p.root.nodes)
    (hchild : child ∈ node.children) : child ∈ p.root.nodes :=
  Node.nodes_subset p.root hnode (Node.mem_nodes_of_child hchild)

/-- What goes on with the name in a node. -/
theorem keepsTo_nameOf_bind {node : Node} {f : String → Dialogue α}
    (hf : ∀ name, node.name? = some name → (f name).KeepsTo p) :
    (nameOf node >>= f).KeepsTo p := by
  unfold nameOf
  split
  · next name hlabel =>
    refine hf name ?_
    unfold Node.name?
    rw [hlabel]
  · exact .malformed

/-- What goes on with the first child. -/
theorem keepsTo_operand_bind {node : Node} {f : Node → Dialogue α} (hnode : node ∈ p.root.nodes)
    (hf : ∀ t ∈ p.root.nodes, node.first? = some t → (f t).KeepsTo p) :
    (operand node >>= f).KeepsTo p := by
  unfold operand
  split
  · next first hfirst => exact hf first (mem_nodes_child hnode (Node.mem_of_first? hfirst)) hfirst
  · exact .malformed

/-- What goes on with the first two children. -/
theorem keepsTo_operands_bind {node : Node} {f : Node × Node → Dialogue α}
    (hnode : node ∈ p.root.nodes)
    (hf : ∀ left ∈ p.root.nodes, ∀ right ∈ p.root.nodes, (f (left, right)).KeepsTo p) :
    (operands node >>= f).KeepsTo p := by
  unfold operands
  split
  · next first second hfirst hsecond =>
    exact hf first (mem_nodes_child hnode (Node.mem_of_first? hfirst)) second
      (mem_nodes_child hnode (Node.mem_of_second? hsecond))
  · exact .malformed

/-! ## The parts of a level

One lemma for each helper of the evaluator, given that the levels below keep to the program. -/

section Level

variable {eval : Speaker} {node : Node}

/-- The value of a part, which is evaluated below. -/
theorem keepsTo_valueOf (h : (eval node).KeepsTo p) : (valueOf eval node).KeepsTo p := by
  refine h.bind fun c => ?_
  split
  · exact .done
  · exact .done
  · exact .malformed

/-- The values of all arguments, by induction on them. -/
theorem keepsTo_valuesOf {nodes : List Node} (h : ∀ t ∈ nodes, (eval t).KeepsTo p) :
    (valuesOf eval nodes).KeepsTo p := by
  induction nodes with
  | nil => exact .done
  | cons first others ih =>
    obtain ⟨hfirst, hothers⟩ := List.forall_mem_cons.1 h
    refine (keepsTo_valueOf hfirst).bind fun value => ?_
    exact (ih hothers).bind fun values => .done

/-- The number of an operand; where it is none the fault is at the operand's node. -/
theorem keepsTo_numberOf {operator : String} (hnode : node ∈ p.root.nodes)
    (h : (eval node).KeepsTo p) : (numberOf eval operator node).KeepsTo p := by
  refine (keepsTo_valueOf h).bind fun value => ?_
  split
  · exact .done
  · exact .fault hnode ⟨rfl, by simp⟩ (by simp)

theorem keepsTo_sequence {nodes : List Node} (h : ∀ t ∈ nodes, (eval t).KeepsTo p) :
    (sequence eval nodes).KeepsTo p := by
  induction nodes with
  | nil => exact .done
  | cons first others ih =>
    obtain ⟨hfirst, hothers⟩ := List.forall_mem_cons.1 h
    refine hfirst.bind fun c => ?_
    split
    · exact .done
    · exact ih hothers

/-- A loop, by induction on the rounds that it may take. -/
theorem keepsTo_loop {test : Dialogue Bool} {body : Dialogue Completion} (htest : test.KeepsTo p)
    (hbody : body.KeepsTo p) (n : Nat) : (loop test body n).KeepsTo p := by
  induction n with
  | zero => exact .outOfFuel
  | succ n ih =>
    refine htest.bind fun truth => ?_
    split
    · refine hbody.bind fun c => ?_
      split
      · exact .done
      · exact ih
    · exact .done

/-- A variable; where it is not defined the fault is at its node. -/
theorem keepsTo_lookUp {name : String} (hnode : node ∈ p.root.nodes) :
    (lookUp name node.line).KeepsTo p := by
  unfold lookUp
  split
  · exact .done
  · refine KeepsTo.find.bind fun found => ?_
    split
    · exact .done
    · exact .fault hnode ⟨rfl, by simp⟩ (by simp)

theorem keepsTo_assignAll {parameters : List Node} {arguments : List Value} :
    (assignAll parameters arguments).KeepsTo p := by
  induction parameters generalizing arguments with
  | nil => exact .done
  | cons parameter parameters ih =>
    cases arguments with
    | nil => exact .done
    | cons argument arguments =>
      refine keepsTo_nameOf_bind fun name _ => ?_
      exact KeepsTo.assign.bind fun _ => ih

variable (heval : ∀ t ∈ p.root.nodes, (eval t).KeepsTo p)

include heval

theorem keepsTo_holds (hnode : node ∈ p.root.nodes) : (holds eval node).KeepsTo p := by
  have hnumber : ∀ operator, ∀ t ∈ p.root.nodes, (numberOf eval operator t).KeepsTo p := by
    intro operator t ht
    exact keepsTo_numberOf ht (heval t ht)
  unfold holds
  split
  · next op _ =>
    refine keepsTo_operands_bind hnode ?_
    intro left hleft right hright
    refine (hnumber op.symbol left hleft).bind fun x => ?_
    exact (hnumber op.symbol right hright).bind fun y => .done
  · exact (hnumber "condition" node hnode).bind fun x => .done

theorem keepsTo_operation {op : Operator} (hnode : node ∈ p.root.nodes) :
    (operation eval op node).KeepsTo p := by
  refine keepsTo_operands_bind hnode ?_
  intro left hleft right hright
  dsimp only
  split
  · refine (keepsTo_valueOf (heval left hleft)).bind fun a => ?_
    exact (keepsTo_valueOf (heval right hright)).bind fun b => .done
  · refine (keepsTo_numberOf hleft (heval left hleft)).bind fun x => ?_
    exact (keepsTo_numberOf hright (heval right hright)).bind fun y => .done

/-- A call is refused on the line of the node that calls. -/
theorem keepsTo_invoke {name : String} {arguments : List Value} (hnode : node ∈ p.root.nodes) :
    (invoke p eval name arguments node.line).KeepsTo p := by
  -- the call can be refused before it begins: there is no such function, or the numbers of
  -- arguments differ
  unfold invoke
  split
  · exact .fault hnode ⟨rfl, by simp⟩ (by simp)
  · next function hfunction =>
    have hmem : function ∈ p.root.nodes :=
      Node.mem_nodes_of_child (Evaluation.mem_of_function? hfunction)
    split
    · exact .done
    · next body hbody =>
      have hbodyMem := mem_nodes_child hmem (List.mem_of_getLast? hbody)
      dsimp only
      split
      · exact .fault hnode ⟨rfl, by simp⟩ (by simp)
      · refine KeepsTo.call.bind fun _ => ?_
        refine KeepsTo.report.bind fun _ => ?_
        refine KeepsTo.enter.bind fun _ => ?_
        refine keepsTo_assignAll.bind fun _ => ?_
        refine (heval body hbodyMem).bind fun c => ?_
        split
        · exact KeepsTo.yield.bind fun _ => .done
        · refine KeepsTo.resume.bind fun _ => ?_
          exact KeepsTo.yield.bind fun _ => .done

/-- **One level of a dialogue keeps to the program** if the levels below do. -/
theorem keepsTo_step {n : Nat} (hnode : node ∈ p.root.nodes) : (step p n eval node).KeepsTo p := by
  have hvalue : ∀ t ∈ p.root.nodes, (valueOf eval t).KeepsTo p := by
    intro t ht
    exact keepsTo_valueOf (heval t ht)
  have hbelow : ∀ t ∈ node.children, (eval t).KeepsTo p := by
    intro t ht
    exact heval t (mem_nodes_child hnode ht)
  unfold step
  split
  · exact .done
  · exact .done
  · split
    · exact .done
    · next statements others hchildren =>
      refine hbelow statements ?_
      rw [hchildren]
      exact List.mem_cons_self
  · exact keepsTo_sequence hbelow
  · -- an assignment
    refine keepsTo_operands_bind hnode ?_
    intro target _ expression hexpression
    refine (hvalue expression hexpression).bind fun value => ?_
    refine keepsTo_nameOf_bind fun name _ => ?_
    exact KeepsTo.assign.bind fun _ => .done
  · -- a `write`
    next hlabel =>
    refine keepsTo_operand_bind hnode ?_
    intro expression hexpression _
    refine (hvalue expression hexpression).bind fun value => ?_
    exact .write ⟨hnode, hlabel⟩ .done
  · -- a `read`
    next hlabel =>
    refine keepsTo_operand_bind hnode ?_
    intro target _ hfirst
    refine keepsTo_nameOf_bind fun name hname => ?_
    have htarget : node.target? = some name := by
      unfold Node.target?
      rw [hlabel]
      dsimp only
      rw [hfirst, Option.bind_some, hname]
    exact .read ⟨hnode, hlabel, htarget⟩ fun text => .done
  · refine keepsTo_operands_bind hnode ?_
    intro test htest body hbody
    exact keepsTo_loop (keepsTo_holds heval htest) (heval body hbody) n
  · refine keepsTo_operands_bind hnode ?_
    intro test htest consequence hconsequence
    refine (keepsTo_holds heval htest).bind fun truth => ?_
    split
    · exact heval consequence hconsequence
    · split
      · next alternative halternative =>
        exact hbelow alternative (List.mem_of_getElem? halternative)
      · exact .done
  · -- a `return`
    refine keepsTo_operand_bind hnode ?_
    intro expression hexpression _
    refine (hvalue expression hexpression).bind fun value => ?_
    refine KeepsTo.resume.bind fun _ => ?_
    exact KeepsTo.report.bind fun _ => .done
  · refine (keepsTo_valuesOf hbelow).bind fun arguments => ?_
    exact (keepsTo_invoke heval hnode).bind fun value => .done
  · exact (keepsTo_operation heval hnode).bind fun value => .done
  · exact (keepsTo_holds heval hnode).bind fun truth => .done
  · exact .done
  · exact .done
  · exact (keepsTo_lookUp hnode).bind fun value => .done

end Level

/-! ## Whole programs -/

/-- **The dialogue of a program keeps to the program**, with any fuel. -/
theorem keepsTo_evaluate : ∀ (n : Nat), ∀ t ∈ p.root.nodes, (evaluate p n t).KeepsTo p
  | 0, _, _ => .outOfFuel
  | n + 1, _, ht => (KeepsTo.visit ht).bind fun _ => keepsTo_step (keepsTo_evaluate n) ht

/-- A whole run, which starts with a call and ends with passing the output on. -/
theorem keepsTo_run (fuel : Nat) : (run p fuel).KeepsTo p := by
  unfold run
  split
  · next hmain =>
    refine .halt ?_ rfl
    intro error herror
    cases herror
    exact Or.inl ⟨rfl, hmain⟩
  · next function hfunction =>
    have hnode : function ∈ p.root.nodes :=
      Node.mem_nodes_of_child (Evaluation.mem_of_function? hfunction)
    refine (keepsTo_invoke (keepsTo_evaluate fuel) hnode).bind fun value => ?_
    exact .flush ⟨function, hnode, rfl⟩ .done

/-- A run halts at a node of the program, also where a request is refused. -/
theorem KeepsTo.placedIn {d : Dialogue α} (h : d.KeepsTo p) {s : Session} {e : Halt}
    (hend : (d.outcome s).1 = .error e) : e.PlacedIn p := by
  have hmore : ∀ {s first} {next : first.Reply → Dialogue α}, first.AskedIn p →
      (∀ reply t, ((next reply).outcome t).1 = .error e → e.PlacedIn p) →
      ((ask first next).outcome s).1 = .error e → e.PlacedIn p := by
    intro s first next hfirst hnext hend
    cases hanswer : first.answer s with
    | ok reply t =>
      rw [outcome_of_answer hanswer] at hend
      exact hnext reply t hend
    | error e' t =>
      rw [outcome_of_refusal hanswer] at hend
      cases hend
      exact Request.placedIn_of_refusal hfirst hanswer
  -- a fault is that of a refused request; the induction is on what is asked
  induction h generalizing s with
  | done => cases hend
  | halt h hnot =>
    cases hend
    exact h
  | silent hsilent hasked hnext ih => exact hmore hasked (fun reply t => ih reply) hend
  | write hasked hnext ih => exact hmore hasked (fun _ t => ih) hend
  | read hasked hnext ih =>
    refine hmore hasked (fun text t => ?_) hend
    exact hmore trivial fun _ u => ih text
  | flush hasked hnext ih => exact hmore hasked (fun _ t => ih) hend

/-- Every request of a transcript is made at a node of the program. -/
theorem KeepsTo.askedIn {d : Dialogue α} (h : d.KeepsTo p) {s : Session} {q : Request}
    (hq : q ∈ d.transcript s) : q.AskedIn p := by
  -- in the transcript, the first request stands before those of the rest
  have hmore : ∀ {s first} {next : first.Reply → Dialogue α}, first.AskedIn p →
      (∀ reply t, q ∈ (next reply).transcript t → q.AskedIn p) →
      q ∈ (ask first next).transcript s → q.AskedIn p := by
    intro s first next hfirst hnext hmem
    rw [transcript] at hmem
    rcases List.mem_cons.1 hmem with rfl | hrest
    · exact hfirst
    · cases hanswer : first.answer s with
      | ok reply t =>
        rw [hanswer] at hrest
        exact hnext reply t hrest
      | error e t =>
        rw [hanswer] at hrest
        cases hrest
  induction h generalizing s with
  | done => cases hq
  | halt => cases hq
  | silent hsilent hasked hnext ih => exact hmore hasked (fun reply t => ih reply) hq
  | write hasked hnext ih => exact hmore hasked (fun _ t => ih) hq
  | read hasked hnext ih =>
    refine hmore hasked (fun text t => ?_) hq
    exact hmore trivial fun _ u => ih text
  | flush hasked hnext ih => exact hmore hasked (fun _ t => ih) hq

end Dialogue
end Scriptlet
