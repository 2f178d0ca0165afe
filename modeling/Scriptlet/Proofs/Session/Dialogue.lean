import Scriptlet.Proofs.Session.Logic

/-!
A run as a dialogue of the program with its session.

An evaluation is a function of sessions and does not show what it asks of them.  A `Dialogue` does: it
is a tree of requests, each with one way to go on for every reply.  The program decides on the
requests and the session on the replies, so one dialogue describes the runs of a program in all
sessions, and two runs in different sessions go the same way until they get different replies.

`Dialogue.evaluate` and `Dialogue.run` say what a program asks, helper by helper as the evaluator
does.  Held with a session, by answering every request with the operation of that name, they are the
evaluator: `held_evaluate` and `held_run`.  So what is proved of all dialogues, by induction on the
tree, holds of every run.

The equation is proved helper by helper too.  `held` takes `pure` to `pure`, `throw` to `throw` and
one computation after another to one after another, and takes each request to the operation of the
session that answers it.  These are simp lemmas.  With them, the equation for a helper follows by
unfolding both sides of it, and the equation for the whole evaluator by induction on the fuel.

Beside the requests a dialogue has marks: a node is visited, a function is called with its arguments,
a call yields its value.  Nothing is done about a mark; it only tells where in the program the run is.
The requests and marks of one run, in order, are its `transcript`.  What is said about the order of
events in a run (that a call is answered before its caller goes on, that a line is read at an input
statement) is said about the transcript, and proved from the shape of the dialogue alone.

A property that every request of a program keeps is kept by all its runs.  A property of the order of
requests is one of the tree, and there is an induction principle for each.
-/

namespace Scriptlet

/-- A place in the program that a run comes to. -/
inductive Mark where
  | visit (node : Node)
  | call (name : String) (arguments : List Value)
  | yield (v : Value)

/-- What a program asks of its session.  Writing and reading are asked for by a node. -/
inductive Request where
  | mark (m : Mark)
  | find (name : String)
  | assign (name : String) (v : Value)
  | report (e : Event)
  | enter (function : String)
  | resume
  | write (node : Node) (text : String)
  | read (node : Node) (name : String)
  | flush (line : Nat)

namespace Request

/-- What a request is answered with. -/
@[reducible] def Reply : Request → Type
  | find _ => Option Value
  | read _ _ => String
  | _ => Unit

/-- The operation that answers a request. -/
def answer : (q : Request) → Evaluation q.Reply
  | mark _ => pure ()
  | find name => do
    let s ← get
    pure (s.memory.find? s.current name)
  | assign name v => Evaluation.assign name v
  | report e => Evaluation.report e
  | enter function => Evaluation.enter function
  | resume => Evaluation.resume
  | write node text => Evaluation.writeLine node.line text
  | read node name => Evaluation.nextLine node.line name
  | flush line => Evaluation.flush line

end Request

/-- A computation that ends with a result or a halt of its own, or asks and goes on with the reply. -/
inductive Dialogue (α : Type) : Type where
  | done (a : α)
  | halt (e : Halt)
  | ask (q : Request) (next : q.Reply → Dialogue α)

namespace Dialogue

variable {α β : Type}

/-- Goes on with the result of a dialogue. -/
def bind : Dialogue α → (α → Dialogue β) → Dialogue β
  | done a, f => f a
  | halt e, _ => halt e
  | ask q next, f => ask q fun reply => (next reply).bind f

instance : Monad Dialogue where
  pure := done
  bind := bind

/-- A request by itself. -/
def request (q : Request) : Dialogue q.Reply := ask q done

/-! The requests by name: -/

def mark (m : Mark) : Dialogue Unit := request (.mark m)

def find (name : String) : Dialogue (Option Value) := request (.find name)

def assign (name : String) (v : Value) : Dialogue Unit := request (.assign name v)

def report (e : Event) : Dialogue Unit := request (.report e)

def enter (function : String) : Dialogue Unit := request (.enter function)

def resume : Dialogue Unit := request .resume

def write (node : Node) (text : String) : Dialogue Unit := request (.write node text)

def read (node : Node) (name : String) : Dialogue String := request (.read node name)

def flush (line : Nat) : Dialogue Unit := request (.flush line)

/-- The evaluation that the dialogue is with any session. -/
def held : Dialogue α → Evaluation α
  | done a => pure a
  | halt e => throw e
  | ask q next => do
    let reply ← q.answer
    (next reply).held

/-- The result or the halt of the dialogue in a session, and the session after it. -/
def outcome (d : Dialogue α) (s : Session) : Except Halt α × Session :=
  match d.held s with
  | .ok a t => (.ok a, t)
  | .error e t => (.error e, t)

/-- The requests that are made in the session, the one that is refused included. -/
def transcript : Dialogue α → Session → List Request
  | done _, _ => []
  | halt _, _ => []
  | ask q next, s =>
    q :: match q.answer s with
      | .ok reply t => (next reply).transcript t
      | .error _ _ => []

/-! ## Dialogues one after another

Sequencing goes below all requests of the first dialogue. -/

/-- A dialogue that is over hands its result on. -/
@[simp] theorem done_bind {a : α} {f : α → Dialogue β} : done a >>= f = f a := rfl

@[simp] theorem pure_eq {a : α} : (pure a : Dialogue α) = done a := rfl

@[simp] theorem halt_bind {e : Halt} {f : α → Dialogue β} : halt e >>= f = halt e := rfl

/-- A dialogue asks its first request first, whatever comes after it. -/
theorem ask_bind {q : Request} {next : q.Reply → Dialogue α} {f : α → Dialogue β} :
    ask q next >>= f = ask q fun reply => next reply >>= f := rfl

/-- Dialogues one after another may be taken together in any way. -/
theorem bind_bind {γ : Type} (d : Dialogue α) (f : α → Dialogue β) (g : β → Dialogue γ) :
    d >>= f >>= g = d >>= fun a => f a >>= g := by
  induction d with
  | done a => rfl
  | halt e => rfl
  | ask q next ih => exact congrArg (ask q) (funext ih)

/-- To end with the result of a dialogue is that dialogue. -/
theorem bind_done (d : Dialogue α) : d >>= done = d := by
  induction d with
  | done a => rfl
  | halt e => rfl
  | ask q next ih => exact congrArg (ask q) (funext ih)

@[simp] theorem held_done {a : α} : (done a).held = pure a := rfl

/-- A halt of the dialogue is a halt of the evaluation. -/
@[simp] theorem held_halt {e : Halt} : (halt e : Dialogue α).held = throw e := rfl

/-- A request by itself is the operation that answers it; the equations for the single requests are
cases of this one. -/
theorem held_request {q : Request} : (request q).held = q.answer := by
  show (q.answer >>= fun reply => pure reply) = q.answer
  exact bind_pure _

@[simp] theorem held_mark {m : Mark} : (mark m).held = pure () := held_request

@[simp] theorem held_find {name : String} : (find name).held = (Request.find name).answer :=
  held_request

@[simp] theorem held_assign {name : String} {v : Value} :
    (assign name v).held = Evaluation.assign name v := held_request

@[simp] theorem held_report {e : Event} : (report e).held = Evaluation.report e := held_request

/-- A new record is handed out for the function. -/
@[simp] theorem held_enter {function : String} :
    (enter function).held = Evaluation.enter function := held_request

/-- The record of the caller is handed back. -/
@[simp] theorem held_resume : resume.held = Evaluation.resume := held_request

/-- A line of text goes out for the node. -/
@[simp] theorem held_write {node : Node} {text : String} :
    (write node text).held = Evaluation.writeLine node.line text := held_request

/-- A line comes in for the node and the name it is for. -/
@[simp] theorem held_read {node : Node} {name : String} :
    (read node name).held = Evaluation.nextLine node.line name := held_request

/-- What has been written is to reach its destination. -/
@[simp] theorem held_flush {line : Nat} : (flush line).held = Evaluation.flush line := held_request

/-- The parts of a dialogue are held one after the other. -/
@[simp] theorem held_bind {d : Dialogue α} {f : α → Dialogue β} :
    (d >>= f).held = d.held >>= fun a => (f a).held := by
  induction d with
  | done a => simp
  | halt e => rfl
  | ask q next ih =>
    show (q.answer >>= fun reply => (next reply >>= f).held) = _
    simp only [ih, held, bind_assoc]

/-- The second part of a dialogue is held in the session that the first leaves. -/
theorem transcript_bind {d : Dialogue α} {f : α → Dialogue β} {s : Session} :
    (d >>= f).transcript s = d.transcript s ++
      match d.held s with
      | .ok a t => (f a).transcript t
      | .error _ _ => [] := by
  induction d generalizing s with
  | done a => rfl
  | halt e => rfl
  | ask q next ih =>
    have hheld : (ask q next).held s = (q.answer >>= fun reply => (next reply).held) s := rfl
    -- the first request is asked, and what follows it is the rest of both
    rw [ask_bind, transcript, transcript, hheld]
    simp only [Bind.bind, EStateM.bind]
    cases hanswer : q.answer s with
    | ok reply t =>
      simp only [List.cons_append]
      congr 1
      exact ih reply
    | error e t => rfl

/-- What an answered request leads to. -/
theorem outcome_of_answer {q : Request} {next : q.Reply → Dialogue α} {s t : Session}
    {reply : q.Reply} (h : q.answer s = .ok reply t) :
    (ask q next).outcome s = (next reply).outcome t := by
  have hheld : (ask q next).held s = (next reply).held t := by
    show (q.answer >>= fun reply => (next reply).held) s = _
    simp only [Bind.bind, EStateM.bind, h]
  rw [outcome, hheld]
  rfl

/-- A request that is refused ends the dialogue. -/
theorem outcome_of_refusal {q : Request} {next : q.Reply → Dialogue α} {s t : Session} {e : Halt}
    (h : q.answer s = .error e t) : (ask q next).outcome s = (.error e, t) := by
  have hheld : (ask q next).held s = .error e t := by
    show (q.answer >>= fun reply => (next reply).held) s = _
    simp only [Bind.bind, EStateM.bind, h]
  rw [outcome, hheld]

/-- A request that is answered stands in the transcript, before what comes of its reply. -/
theorem transcript_of_answer {q : Request} {next : q.Reply → Dialogue α} {s t : Session}
    {reply : q.Reply} (h : q.answer s = .ok reply t) :
    (ask q next).transcript s = q :: (next reply).transcript t := by
  rw [transcript, h]

/-- A request that the session refuses is the last of the transcript. -/
theorem transcript_of_refusal {q : Request} {next : q.Reply → Dialogue α} {s t : Session} {e : Halt}
    (h : q.answer s = .error e t) : (ask q next).transcript s = [q] := by
  rw [transcript, h]

variable {s t : Session} {d : Dialogue α} {f : α → Dialogue β}

/-- What a dialogue comes to is what is held. -/
theorem held_of_outcome {a : α} (h : d.outcome s = (.ok a, t)) : d.held s = .ok a t := by
  unfold outcome at h
  cases hheld : d.held s <;> rw [hheld] at h <;> cases h
  rfl

/-- What comes second goes on with the result of the first and in its session. -/
theorem outcome_bind_of_ok {a : α} (h : d.outcome s = (.ok a, t)) :
    (d >>= f).outcome s = (f a).outcome t := by
  unfold outcome at h
  rw [outcome, held_bind]
  simp only [Bind.bind, EStateM.bind]
  cases hheld : d.held s <;> rw [hheld] at h <;> cases h
  rfl

/-- What comes second does not begin where the first halts. -/
theorem outcome_bind_of_error {e : Halt} (h : d.outcome s = (.error e, t)) :
    (d >>= f).outcome s = (.error e, t) := by
  unfold outcome at h
  rw [outcome, held_bind]
  simp only [Bind.bind, EStateM.bind]
  cases hheld : d.held s <;> rw [hheld] at h <;> cases h
  rfl

/-- The transcripts of two dialogues in sequence, one after the other. -/
theorem transcript_bind_of_ok {a : α} (h : d.outcome s = (.ok a, t)) :
    (d >>= f).transcript s = d.transcript s ++ (f a).transcript t := by
  unfold outcome at h
  rw [transcript_bind]
  cases hheld : d.held s <;> rw [hheld] at h <;> cases h
  rfl

/-- Only that of the first where it halts. -/
theorem transcript_bind_of_error {e : Halt} (h : d.outcome s = (.error e, t)) :
    (d >>= f).transcript s = d.transcript s := by
  unfold outcome at h
  rw [transcript_bind]
  cases hheld : d.held s <;> rw [hheld] at h <;> cases h
  exact List.append_nil _

/-! ## What a program asks

The same helpers as in the evaluator, with requests in place of the operations of a session and
marks at nodes and calls. -/

/-- What a dialogue says for each node. -/
abbrev Speaker := Node → Dialogue Completion

/-- Halts with a fault on a line. -/
def fault (line : Nat) (cause : Cause) : Dialogue α := halt (.fault (.onLine line cause))

/-- The name in a node that has to be a name. -/
def nameOf (node : Node) : Dialogue String :=
  match node.label with
  | .identifier name => pure name
  | other => halt (.malformed (.notAName other))

/-- The first child. -/
def operand (node : Node) : Dialogue Node :=
  match node.first? with
  | some first => pure first
  | none => halt (.malformed (.noOperand node.label))

/-- The first two children. -/
def operands (node : Node) : Dialogue (Node × Node) :=
  match node.first?, node.second? with
  | some first, some second => pure (first, second)
  | _, _ => halt (.malformed (.notTwoOperands node.label))

/-- The value of an expression. -/
def valueOf (eval : Speaker) (node : Node) : Dialogue Value := do
  match ← eval node with
  | .value v => pure v
  | .returned v => pure v
  | .normal => halt (.malformed (.notAnExpression node.label))

/-- The values of several expressions, from the first to the last. -/
def valuesOf (eval : Speaker) : List Node → Dialogue (List Value)
  | [] => pure []
  | node :: nodes => do
    let value ← valueOf eval node
    let values ← valuesOf eval nodes
    pure (value :: values)

/-- The value of an operand of `operator`, which has to be a number. -/
def numberOf (eval : Speaker) (operator : String) (node : Node) : Dialogue Float := do
  let value ← valueOf eval node
  match value.asNumber? with
  | some x => pure x
  | none => fault node.line (.nonNumericOperand operator value.observed)

/-- Does the condition hold? -/
def holds (eval : Speaker) (node : Node) : Dialogue Bool :=
  match node.label with
  | .comparison op => do
    let (left, right) ← operands node
    let x ← numberOf eval op.symbol left
    let y ← numberOf eval op.symbol right
    pure (Evaluation.comparisonHolds op x y)
  | _ => do
    let x ← numberOf eval "condition" node
    pure (x != 0)

/-- The value of an operator node. -/
def operation (eval : Speaker) (op : Operator) (node : Node) : Dialogue Value := do
  let (left, right) ← operands node
  if op = .add then do
    let a ← valueOf eval left
    let b ← valueOf eval right
    pure (a.add b)
  else do
    let x ← numberOf eval op.symbol.toString left
    let y ← numberOf eval op.symbol.toString right
    pure (.number (Evaluation.arithmetic op x y))

/-- The value of a name. -/
def lookUp (name : String) (line : Nat) : Dialogue Value :=
  match Number.read? name with
  | some x => pure (.number x)
  | none => do
    match ← find name with
    | some v => pure v
    | none => fault line (.undefinedVariable name)

/-- Gives parameters their arguments, from the first to the last. -/
def assignAll : List Node → List Value → Dialogue Unit
  | parameter :: parameters, argument :: arguments => do
    let name ← nameOf parameter
    assign name argument
    assignAll parameters arguments
  | _, _ => pure ()

/-- Calls a function from a line, with a mark when it is called and one when it yields its value. -/
def invoke (p : Program) (eval : Speaker) (name : String) (arguments : List Value)
    (line : Nat) : Dialogue Value :=
  match p.function? name with
  | none => fault line (.undefinedFunction name)
  | some function =>
    match function.children.getLast? with
    | none => pure .none
    | some body => do
      let parameters := function.children.dropLast
      if parameters.length ≠ arguments.length then
        fault line (.parameterCount name parameters.length arguments.length)
      else do
        mark (.call name arguments)
        report (.calling name arguments)
        enter name
        assignAll parameters arguments
        match ← eval body with
        | .returned v => do
          mark (.yield v)
          pure v
        | _ => do
          resume
          mark (.yield .none)
          pure .none

/-- Speaks statements in order, up to the first that returns. -/
def sequence (eval : Speaker) : List Node → Dialogue Completion
  | [] => pure .normal
  | statement :: statements => do
    match ← eval statement with
    | .returned v => pure (.returned v)
    | _ => sequence eval statements

/-- Repeats the body while the test holds, at most `n` times. -/
def loop (test : Dialogue Bool) (body : Dialogue Completion) : Nat → Dialogue Completion
  | 0 => halt .outOfFuel
  | n + 1 => do
    if ← test then
      match ← body with
      | .returned v => pure (.returned v)
      | _ => loop test body n
    else pure .normal

/-- One level of a dialogue, with `eval` for the levels below and `n` rounds for a loop. -/
def step (p : Program) (n : Nat) (eval : Speaker) (node : Node) : Dialogue Completion :=
  match node.label with
  | .program => pure .normal
  | .function _ => pure .normal
  | .block =>
    match node.children with
    | [] => pure .normal
    | statements :: _ => eval statements
  | .statements => sequence eval node.children
  | .assign => do
    let (target, expression) ← operands node
    let value ← valueOf eval expression
    let name ← nameOf target
    assign name value
    pure .normal
  | .write => do
    let expression ← operand node
    let value ← valueOf eval expression
    write node value.observed
    pure .normal
  | .read => do
    let target ← operand node
    let name ← nameOf target
    let text ← read node name
    assign name (.ofText text)
    pure .normal
  | .whileLoop => do
    let (test, body) ← operands node
    loop (holds eval test) (eval body) n
  | .ifThen => do
    let (test, consequence) ← operands node
    if ← holds eval test then eval consequence
    else
      match node.children[2]? with
      | some alternative => eval alternative
      | none => pure .normal
  | .returnValue => do
    let expression ← operand node
    let value ← valueOf eval expression
    resume
    report (.returning value)
    pure (.returned value)
  | .call name => do
    let arguments ← valuesOf eval node.children
    let value ← invoke p eval name arguments node.line
    pure (.value value)
  | .operator op => do
    let value ← operation eval op node
    pure (.value value)
  | .comparison _ => do
    let truth ← holds eval node
    pure (.value (.number (if truth then 1 else 0)))
  | .number x => pure (.value (.number x))
  | .text literal => pure (.value (.text literal))
  | .identifier name => do
    let value ← lookUp name node.line
    pure (.value value)

/-- What a program asks at a node, at most as many levels deep as there is fuel.  Every node that is
evaluated is marked. -/
def evaluate (p : Program) : Nat → Speaker
  | 0, _ => halt .outOfFuel
  | n + 1, node => do
    mark (.visit node)
    step p n (evaluate p n) node

/-- What a program asks in a run. -/
def run (p : Program) (fuel : Nat) : Dialogue Value :=
  match p.function? entryPoint with
  | none => halt (.fault ⟨.missingMain, none⟩)
  | some function => do
    let value ← invoke p (evaluate p fuel) entryPoint [] function.line
    flush function.line
    pure value

/-- What comes to a value and ends with it is an operand as it is. -/
theorem valueOf_of_value {eval : Speaker} {node : Node} {d : Dialogue Value}
    (h : eval node = (do
      let v ← d
      pure (.value v))) : valueOf eval node = d := by
  unfold valueOf
  rw [h, bind_bind]
  exact bind_done d

/-! ## The dialogue of a program is its evaluation

One equation for each helper.  The evaluators below are related in the same way, which is the
hypothesis. -/

section Held

variable {p : Program} {eval : Speaker}

/-- The fault of a node, with its line and its cause. -/
@[simp] theorem held_fault {line : Nat} {cause : Cause} :
    (fault line cause : Dialogue α).held = Evaluation.fault line cause := rfl

/-- The name in a leaf, which is read off the tree and asks nothing. -/
@[simp] theorem held_nameOf {node : Node} : (nameOf node).held = Evaluation.nameOf node := by
  obtain ⟨label, children, line⟩ := node
  cases label <;> rfl

/-- The operand of a node with one child. -/
@[simp] theorem held_operand {node : Node} : (operand node).held = Evaluation.operand node := by
  obtain ⟨label, children, line⟩ := node
  cases children <;> rfl

@[simp] theorem held_operands {node : Node} : (operands node).held = Evaluation.operands node := by
  obtain ⟨label, children, line⟩ := node
  rcases children with _ | ⟨first, _ | ⟨second, others⟩⟩ <;> rfl

/-- The value of a part: an evaluation of it, and a fault where it has none. -/
@[simp] theorem held_valueOf {node : Node} :
    (valueOf eval node).held = Evaluation.valueOf (fun t => (eval t).held) node := by
  unfold valueOf Evaluation.valueOf
  rw [held_bind]
  congr 1
  funext c
  cases c <;> rfl

/-- The values of all arguments, from left to right. -/
@[simp] theorem held_valuesOf {nodes : List Node} :
    (valuesOf eval nodes).held = Evaluation.valuesOf (fun t => (eval t).held) nodes := by
  induction nodes with
  | nil => rfl
  | cons node nodes ih => simp [valuesOf, Evaluation.valuesOf, ih]

/-- The number of an operand, or the fault of its operator. -/
@[simp] theorem held_numberOf {operator : String} {node : Node} :
    (numberOf eval operator node).held =
      Evaluation.numberOf (fun t => (eval t).held) operator node := by
  unfold numberOf Evaluation.numberOf
  rw [held_bind, held_valueOf]
  congr 1
  funext v
  cases v.asNumber? <;> rfl

@[simp] theorem held_holds {node : Node} :
    (holds eval node).held = Evaluation.holds (fun t => (eval t).held) node := by
  obtain ⟨label, children, line⟩ := node
  cases label <;> simp [holds, Evaluation.holds]

@[simp] theorem held_operation {op : Operator} {node : Node} :
    (operation eval op node).held = Evaluation.operation (fun t => (eval t).held) op node := by
  unfold operation Evaluation.operation
  rw [held_bind, held_operands]
  congr 1
  funext pair
  by_cases hop : op = .add <;> simp [hop]

/-- A variable, with a fault where it has no value. -/
@[simp] theorem held_lookUp {name : String} {line : Nat} :
    (lookUp name line).held = Evaluation.lookUp name line := by
  unfold lookUp Evaluation.lookUp
  cases Number.read? name with
  | some x => rfl
  | none =>
    dsimp only
    rw [held_bind, held_find]
    simp only [Request.answer, bind_assoc, pure_bind]
    congr 1
    funext s
    cases s.memory.find? s.current name <;> rfl

@[simp] theorem held_assignAll {parameters : List Node} {arguments : List Value} :
    (assignAll parameters arguments).held = Evaluation.assignAll parameters arguments := by
  induction parameters generalizing arguments with
  | nil => rfl
  | cons parameter parameters ih =>
    cases arguments with
    | nil => rfl
    | cons argument arguments => simp [assignAll, Evaluation.assignAll, ih]

/-- A call: the record, the parameters, the body, and the record of the caller.  The evaluator for
the body is a parameter on both sides. -/
@[simp] theorem held_invoke {name : String} {arguments : List Value} {line : Nat} :
    (invoke p eval name arguments line).held =
      Evaluation.invoke p (fun t => (eval t).held) name arguments line := by
  unfold invoke Evaluation.invoke
  cases p.function? name with
  | none => rfl
  | some function =>
    dsimp only
    cases function.children.getLast? with
    | none => rfl
    | some body =>
      dsimp only
      split
      · rfl
      · simp only [held_bind, held_mark, pure_bind, held_report, held_enter, held_assignAll]
        congr 1; funext _; congr 1; funext _; congr 1; funext _; congr 1; funext c
        cases c <;> simp

/-- A statement, and what comes after it if it does not return. -/
@[simp] theorem held_followed {d d' : Dialogue Completion} :
    (do
      match ← d with
      | .returned v => pure (.returned v)
      | _ => d' : Dialogue Completion).held = (do
        match ← d.held with
        | .returned v => pure (.returned v)
        | _ => d'.held) := by
  rw [held_bind]
  congr 1
  funext c
  cases c <;> rfl

@[simp] theorem held_sequence {nodes : List Node} :
    (sequence eval nodes).held = Evaluation.sequence (fun t => (eval t).held) nodes := by
  induction nodes with
  | nil => rfl
  | cons node nodes ih =>
    have hfollowed := @held_followed (eval node) (sequence eval nodes)
    rw [ih] at hfollowed
    exact hfollowed

/-- A loop, by induction on the rounds it may take. -/
@[simp] theorem held_loop {test : Dialogue Bool} {body : Dialogue Completion} {n : Nat} :
    (loop test body n).held = Evaluation.loop test.held body.held n := by
  induction n with
  | zero => rfl
  | succ n ih =>
    rw [loop, Evaluation.loop, held_bind]
    congr 1
    funext truth
    cases truth with
    | false => rfl
    | true =>
      have hfollowed := @held_followed body (loop test body n)
      rw [ih] at hfollowed
      exact hfollowed

/-- One level of a dialogue is one level of evaluation. -/
theorem held_step {n : Nat} {node : Node} :
    (step p n eval node).held = Evaluation.step p n (fun t => (eval t).held) node := by
  obtain ⟨label, children, line⟩ := node
  cases label with
  | block => cases children <;> rfl
  | ifThen =>
    simp only [step, Evaluation.step, held_bind, held_operands, held_holds]
    congr 1; funext pair; congr 1; funext truth
    cases truth with
    | true => rfl
    | false => cases children[2]? <;> rfl
  | _ => simp [step, Evaluation.step]

/-- **Held with a session, what a program asks at a node is the evaluation of the node.** -/
theorem held_evaluate : ∀ (n : Nat) (node : Node),
    (evaluate p n node).held = Evaluation.evaluate p n node
  | 0, _ => rfl
  | n + 1, node => by
    have hbelow : (fun t => (evaluate p n t).held) = Evaluation.evaluate p n := by
      funext t
      exact held_evaluate n t
    rw [evaluate, held_bind, held_mark, pure_bind, held_step, hbelow]
    rfl

/-- **Held with a session, what a program asks in a run is the run.** -/
theorem held_run {fuel : Nat} : (run p fuel).held = Evaluation.run p fuel := by
  have heval : (fun t => (evaluate p fuel t).held) = Evaluation.evaluate p fuel := by
    funext t
    exact held_evaluate fuel t
  unfold run Evaluation.run
  cases p.function? entryPoint with
  | none => rfl
  | some function => simp [heval]

end Held
end Dialogue

namespace Program

/-- What a program asks of the session in a run, in order. -/
def transcript (p : Program) (fuel : Nat) (s : Session) : List Request :=
  (Dialogue.run p fuel).transcript s

/-- A run is what the dialogue of the program comes to. -/
theorem outcome_run {p : Program} {fuel : Nat} {s : Session} :
    (Dialogue.run p fuel).outcome s = p.runIn fuel s := by
  rw [Dialogue.outcome, Dialogue.held_run, runIn]
  cases Evaluation.run p fuel s <;> rfl

end Program
end Scriptlet
