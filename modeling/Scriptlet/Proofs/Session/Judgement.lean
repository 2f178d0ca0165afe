import Scriptlet.Proofs.Session.Dialogue
import Scriptlet.Proofs.Tree.Names

/-!
Judgements of programs, made part by part.

Much of what is proved of well-formed programs is proved in the same way.  Something is said of what
an expression asks, something else of what a statement asks, and it is kept by every way of putting
dialogues together: by one after the other, by a choice, a loop, a call.  Then it holds of all
expressions and statements of the program with any fuel, by induction on the fuel, where one level
goes through the forms of nodes.

A `Judgement` is what has to be said and shown for that.  It has three predicates: of the parts of
expressions and conditions (`asks`), of the parts of statements, which may also assign (`does`), and
of statements, which may return (`ends`).  Its laws are about dialogues and not about nodes.  The
nodes are gone through here, once and for all judgements, and `Judgement.level` is the result.

Three things are passed on to the laws, for the judgements that depend on them.

* The functions that are active, the one that was called last first.
* Whether there is a call in an expression (`Node.Calls`).
* Something that is known of the nodes in the declaration of a function (`within`), from which it can
  be told which variables are assigned and which functions are called in it.

The judgements made with this are that nothing halts on a malformed node, that calls leave the stack
of their caller alone, that a shared record does as well as a stack, and that the log is well
bracketed.
-/

namespace Scriptlet

namespace Node

/-- There is a call in the expression or condition. -/
inductive Calls : Node → Prop where
  | here {name : String} {arguments : List Node} {line : Nat} :
      Calls ⟨.call name, arguments, line⟩
  | left {label : Label} {left right : Node} {line : Nat} (h : Calls left) :
      Calls (.binary label left right line)
  | right {label : Label} {left right : Node} {line : Nat} (h : Calls right) :
      Calls (.binary label left right line)

/-- A node with two operands calls if one of them does. -/
theorem calls_binary {label : Label} {left right : Node} {line : Nat}
    (h : ∀ name, label ≠ .call name) :
    Calls (.binary label left right line) ↔ Calls left ∨ Calls right := by
  constructor
  · intro hcalls
    cases hcalls with
    | here => exact absurd rfl (h _)
    | left hleft => exact Or.inl hleft
    | right hright => exact Or.inr hright
  · rintro (hleft | hright)
    · exact .left hleft
    · exact .right hright

/-- A leaf calls nothing. -/
theorem not_calls_leaf {label : Label} {line : Nat} (h : ∀ name, label ≠ .call name) :
    ¬ Calls (.leaf label line) := by
  intro hcalls
  cases hcalls
  exact absurd rfl (h _)

end Node

namespace Dialogue

open Node

variable {α β : Type} {p : Program} {name : String} {arguments : List Value}

/-! ## Calls -/

/-- What a call asks once its arguments have been counted: the function is entered and its parameters
are given their arguments, the body runs, and the value is handed to the caller. -/
def frame (name : String) (arguments : List Value) (given : Dialogue Unit)
    (body : Dialogue Completion) : Dialogue Value := do
  mark (.call name arguments)
  report (.calling name arguments)
  enter name
  given
  match ← body with
  | .returned v => do
    mark (.yield v)
    pure v
  | _ => do
    resume
    mark (.yield .none)
    pure .none

/-- A call of a function that is declared. -/
theorem invoke_of_function? {eval : Speaker} {label : Label} {parameters : List Node} {body : Node}
    {own line : Nat} (h : p.function? name = some ⟨label, parameters ++ [body], own⟩) :
    invoke p eval name arguments line =
      if parameters.length ≠ arguments.length then
        fault line (.parameterCount name parameters.length arguments.length)
      else frame name arguments (assignAll parameters arguments) (eval body) := by
  have hbody : (parameters ++ [body]).getLast? = some body := List.getLast?_concat
  have hparameters : (parameters ++ [body]).dropLast = parameters := List.dropLast_concat
  unfold invoke
  rw [h]
  dsimp only
  rewrite [hbody, hparameters]
  rfl

/-- **A call is refused, or it is a frame** around the body of the function. -/
theorem invoke_cases (hp : p.WellFormed) (eval : Speaker) (name : String) (arguments : List Value)
    (line : Nat) :
    (∃ cause, invoke p eval name arguments line = fault line cause) ∨
      ∃ function parameters body, p.function? name = some function ∧ IsFunction function ∧
        function.children = parameters ++ [body] ∧
        (∀ parameter ∈ parameters, IsName parameter) ∧ IsBlock body ∧
        invoke p eval name arguments line =
          frame name arguments (assignAll parameters arguments) (eval body) := by
  cases hf : p.function? name with
  | none =>
    refine Or.inl ⟨.undefinedFunction name, ?_⟩
    unfold invoke
    rw [hf]
  | some function =>
    have hfunction := hp.functions _ (Evaluation.mem_of_function? hf)
    cases hfunction with
    | @function _ _ brace list last parameters nodes hparameters hnodes =>
      rw [invoke_of_function? hf]
      split
      · exact Or.inl ⟨_, rfl⟩
      · exact Or.inr ⟨_, parameters, _, rfl, .function hparameters hnodes, rfl, hparameters,
          isBlock_body brace list last hnodes, rfl⟩

/-- Held with a session, a frame is what the evaluator does in a call. -/
theorem held_frame {given : Dialogue Unit} {body : Dialogue Completion} :
    (frame name arguments given body).held = (do
      Evaluation.report (.calling name arguments)
      Evaluation.enter name
      given.held
      match ← body.held with
      | .returned v => pure v
      | _ => do
        Evaluation.resume
        pure .none) := by
  unfold frame
  simp only [held_bind, held_mark, pure_bind, held_report, held_enter]
  congr 1; funext _; congr 1; funext _; congr 1; funext _; congr 1; funext c
  cases c <;> simp

end Dialogue

/-! ## Laws

What has to be shown of the three predicates. -/

open Dialogue in
/-- Something that is said of what a program asks, and that every way of putting dialogues together
keeps. -/
structure Judgement (p : Program) where
  /-- What is known of the nodes in the declaration of a function. -/
  within : String → Node → Prop
  /-- Said of parts of expressions, while the functions are active.  The proposition says whether
  there is a call in the part. -/
  asks : List String → Prop → {α : Type} → Dialogue α → Prop
  /-- Said of parts of statements. -/
  does : List String → {α : Type} → Dialogue α → Prop
  /-- Said of statements. -/
  ends : List String → Dialogue Completion → Prop
  child : ∀ {f t u}, within f t → u ∈ t.children → within f u
  declared : ∀ {f function u}, p.function? f = some function → u ∈ function.children → within f u
  asks_done : ∀ {fs} {α : Type} {a : α}, asks fs False (.done a)
  asks_halt : ∀ {fs called} {α : Type} {e}, (∀ m, e ≠ .malformed m) →
    asks fs called (.halt e : Dialogue α)
  asks_bind : ∀ {fs called called'} {α β : Type} {d : Dialogue α} {g : α → Dialogue β},
    asks fs called d → (∀ a, asks fs called' (g a)) → asks fs (called ∨ called') (d >>= g)
  asks_visit : ∀ {fs t}, asks fs False (mark (.visit t))
  asks_lookUp : ∀ {f fs name line}, asks (f :: fs) False (lookUp name line)
  asks_flush : ∀ {fs line}, asks fs False (flush line)
  does_of_asks : ∀ {fs called} {α : Type} {d : Dialogue α}, asks fs called d → does fs d
  does_bind : ∀ {fs} {α β : Type} {d : Dialogue α} {g : α → Dialogue β},
    does fs d → (∀ a, does fs (g a)) → does fs (d >>= g)
  does_assign : ∀ {f fs t name v}, within f t → t.target? = some name →
    does (f :: fs) (assign name v)
  does_parameter : ∀ {f fs function t name v}, p.function? f = some function →
    t ∈ function.children.dropLast → t.name? = some name → does (f :: fs) (assign name v)
  does_write : ∀ {fs t text}, does fs (write t text)
  does_read : ∀ {fs t name}, does fs (read t name)
  ends_done : ∀ {fs}, ends fs (.done .normal)
  ends_bind : ∀ {fs} {α : Type} {d : Dialogue α} {g : α → Dialogue Completion},
    does fs d → (∀ a, ends fs (g a)) → ends fs (d >>= g)
  ends_followed : ∀ {fs d d'}, ends fs d → ends fs d' → ends fs (do
    match ← d with
    | .returned v => pure (.returned v)
    | _ => d')
  ends_returning : ∀ {f fs v}, ends (f :: fs) (do
    resume
    report (.returning v)
    pure (.returned v))
  /-- A call.  The function that was called last has a node for it; a body always returns. -/
  asks_frame : ∀ {fs g arguments given body},
    (∀ f ∈ fs.head?, ∃ t, within f t ∧ t.callee? = some g) → does (g :: fs) given →
    ends (g :: fs) body → Evaluation.Returns body.held →
    asks fs True (frame g arguments given body)

namespace Judgement

open Node Dialogue

variable {α β : Type} {p : Program} {J : Judgement p} {fs : List String} {f : String}
  {called called' : Prop} {n line : Nat}

/-! ### What follows from the laws -/

/-- The same, with another way of saying whether there is a call. -/
theorem asks_congr {d : Dialogue α} (h : J.asks fs called d) (hcalled : called ↔ called') :
    J.asks fs called' d := propext hcalled ▸ h

/-- What follows without a call adds none. -/
theorem asks_then {d : Dialogue α} {g : α → Dialogue β} (h : J.asks fs called d)
    (hg : ∀ a, J.asks fs False (g a)) : J.asks fs called (d >>= g) :=
  asks_congr (J.asks_bind h hg) (iff_of_eq (or_false _))

/-- A fault is a halt, and not one that the laws exclude. -/
theorem asks_fault {cause : Cause} : J.asks fs called (fault line cause : Dialogue α) :=
  J.asks_halt fun _ => nofun

theorem asks_outOfFuel : J.asks fs called (.halt .outOfFuel : Dialogue α) := J.asks_halt fun _ => nofun

theorem ends_outOfFuel : J.ends fs (.halt .outOfFuel) := by
  have hasks : J.asks fs False (.halt .outOfFuel : Dialogue Unit) := J.asks_outOfFuel
  exact J.ends_bind (J.does_of_asks hasks) fun _ => J.ends_done

/-- What a statement begins with. -/
theorem ends_of_asks {d : Dialogue α} {g : α → Dialogue Completion} (h : J.asks fs called d)
    (hg : ∀ a, J.ends fs (g a)) : J.ends fs (d >>= g) := J.ends_bind (J.does_of_asks h) hg

/-! ## Expressions -/

/-- The dialogue comes to a value, and until then it asks what the judgement is about. -/
def Yields (J : Judgement p) (fs : List String) (called : Prop) (x : Dialogue Completion) : Prop :=
  ∃ d : Dialogue Value, J.asks fs called d ∧ x = (do
    let v ← d
    pure (.value v))

/-- Whether there is a call may be said in equivalent words. -/
theorem yields_congr {x : Dialogue Completion} (h : J.Yields fs called x)
    (hcalled : called ↔ called') : J.Yields fs called' x := propext hcalled ▸ h

/-- What yields a value asks what an expression asks, the visit of its node included. -/
theorem Yields.asks {x : Dialogue Completion} (h : J.Yields fs called x) : J.asks fs called x := by
  obtain ⟨d, hd, rfl⟩ := h
  exact asks_then hd fun _ => J.asks_done

section Parts

variable {eval : Speaker} {t left right : Node} {op : Operator}

/-- The value of a part is asked for by its evaluation. -/
theorem asks_valueOf (h : J.Yields fs called (eval t)) : J.asks fs called (valueOf eval t) := by
  obtain ⟨d, hd, heq⟩ := h
  rw [valueOf_of_value heq]
  exact hd

theorem asks_numberOf {operator : String} (h : J.Yields fs called (eval t)) :
    J.asks fs called (numberOf eval operator t) := by
  refine asks_then (asks_valueOf h) fun v => ?_
  split
  · exact J.asks_done
  · exact asks_fault

/-- All arguments; there is a call in them if there is one in any. -/
theorem asks_valuesOf {nodes : List Node} (h : ∀ t ∈ nodes, J.Yields fs (Calls t) (eval t)) :
    J.asks fs (∃ t ∈ nodes, Calls t) (valuesOf eval nodes) := by
  induction nodes with
  | nil => exact asks_congr J.asks_done (by simp)
  | cons t nodes ih =>
    obtain ⟨ht, hnodes⟩ := List.forall_mem_cons.1 h
    have hrest := ih hnodes
    refine asks_congr (J.asks_bind (asks_valueOf ht) fun v => asks_then hrest fun vs => J.asks_done) ?_
    simp

/-- An operator; there is a call in it if there is one in either operand. -/
theorem asks_operation (hleft : J.Yields fs called (eval left))
    (hright : J.Yields fs called' (eval right)) :
    J.asks fs (called ∨ called')
      (operation eval op (.binary (.operator op) left right line)) := by
  show J.asks fs _ (if op = .add then _ else _)
  split
  · refine J.asks_bind (asks_valueOf hleft) fun a => ?_
    exact asks_then (asks_valueOf hright) fun b => J.asks_done
  · refine J.asks_bind (asks_numberOf hleft) fun x => ?_
    exact asks_then (asks_numberOf hright) fun y => J.asks_done

/-- A condition is an expression, or it is looked at through the operands of a comparison. -/
theorem asks_holds (h : t.IsCondition) (ht : J.within f t)
    (heval : ∀ e, IsExpression e → J.within f e → J.Yields fs (Calls e) (eval e)) :
    J.asks fs (Calls t) (holds eval t) := by
  cases h with
  | expression h =>
    -- an expression is a condition by its number
    have hholds : holds eval t = (do
        let x ← numberOf eval "condition" t
        pure (x != 0)) := by
      cases h <;> rfl
    rw [hholds]
    exact asks_then (asks_numberOf (heval t h ht)) fun x => J.asks_done
  | @comparison op line left right hleft hright =>
    have hl := heval left hleft (J.child ht List.mem_cons_self)
    have hr := heval right hright (J.child ht (List.mem_cons_of_mem _ List.mem_cons_self))
    -- both sides are asked for, the left one first
    have hboth : J.asks fs (Calls left ∨ Calls right) (do
        let x ← numberOf eval op.symbol left
        let y ← numberOf eval op.symbol right
        pure (Evaluation.comparisonHolds op x y)) :=
      J.asks_bind (asks_numberOf hl) fun x => asks_then (asks_numberOf hr) fun y => J.asks_done
    exact asks_congr hboth (calls_binary (by simp)).symm

/-! ## Calls -/

/-- The parameters of a function are given their arguments while it is active. -/
theorem does_assignAll {function : Node} (hf : p.function? f = some function)
    {parameters : List Node} {arguments : List Value}
    (hnames : ∀ parameter ∈ parameters, IsName parameter)
    (hmem : ∀ parameter ∈ parameters, parameter ∈ function.children.dropLast) :
    J.does (f :: fs) (assignAll parameters arguments) := by
  induction parameters generalizing arguments with
  | nil => exact J.does_of_asks J.asks_done
  | cons parameter parameters ih =>
    obtain ⟨hname, hothers'⟩ := List.forall_mem_cons.1 hnames
    obtain ⟨hfirst, hothers⟩ := List.forall_mem_cons.1 hmem
    cases arguments with
    | nil => exact J.does_of_asks J.asks_done
    | cons argument arguments =>
      cases hname with
      | @identifier name line =>
        have hassign : J.does (f :: fs) (assign name argument) := J.does_parameter hf hfirst rfl
        exact J.does_bind (d := assign name argument) hassign fun _ => ih hothers' hothers

/-! ## Statements

Sequences and loops, by induction on what is repeated. -/

theorem ends_sequence {nodes : List Node} (h : ∀ t ∈ nodes, J.ends fs (eval t)) :
    J.ends fs (sequence eval nodes) := by
  induction nodes with
  | nil => exact J.ends_done
  | cons t nodes ih =>
    obtain ⟨ht, hnodes⟩ := List.forall_mem_cons.1 h
    exact J.ends_followed ht (ih hnodes)

theorem ends_loop {test : Dialogue Bool} {body : Dialogue Completion} (htest : J.asks fs called test)
    (hbody : J.ends fs body) (n : Nat) : J.ends fs (loop test body n) := by
  induction n with
  | zero => exact ends_outOfFuel
  | succ n ih =>
    refine ends_of_asks htest fun truth => ?_
    split
    · exact J.ends_followed hbody ih
    · exact J.ends_done

end Parts

/-! ## All levels -/

/-- The judgement, of the expressions and statements of a program with a given fuel. -/
structure Level (J : Judgement p) (n : Nat) : Prop where
  expression : ∀ t f fs, IsExpression t → J.within f t →
    J.Yields (f :: fs) (Calls t) (evaluate p n t)
  statement : ∀ t f fs, IsStatementOrList t → J.within f t → J.ends (f :: fs) (evaluate p n t)

/-- A call is refused, or it is a frame whose parts are judged while the function is active. -/
theorem Level.invoke_cases (hp : p.WellFormed) (hn : J.Level n) (fs : List String) (g : String)
    (arguments : List Value) (line : Nat) :
    (∃ cause, invoke p (evaluate p n) g arguments line = fault line cause) ∨
      ∃ given body, J.does (g :: fs) given ∧ J.ends (g :: fs) body ∧
        Evaluation.Returns body.held ∧
        invoke p (evaluate p n) g arguments line = frame g arguments given body := by
  rcases Dialogue.invoke_cases hp (evaluate p n) g arguments line with
    hrefused | ⟨function, parameters, body, hf, hfunction, hchildren, hnames, hblock, hinvoke⟩
  · exact Or.inl hrefused
  · -- the body is the last child, and the parameters are those before it
    have hlast : function.children.getLast? = some body := by
      rw [hchildren, List.getLast?_concat]
    have hgiven : J.does (g :: fs) (assignAll parameters arguments) := by
      refine does_assignAll hf hnames fun parameter hmem => ?_
      rw [hchildren, List.dropLast_concat]
      exact hmem
    have hbody := hn.statement body g fs (.statement (.block hblock))
      (J.declared hf (List.mem_of_getLast? hlast))
    have hreturns : Evaluation.Returns (evaluate p n body).held := by
      rw [held_evaluate]
      exact Evaluation.returns_evaluate (hfunction.returns_body hlast)
    exact Or.inr ⟨_, _, hgiven, hbody, hreturns, hinvoke⟩

/-- A call, if the judgement holds of the bodies. -/
theorem Level.asks_invoke (hp : p.WellFormed) (hn : J.Level n) {g : String} {arguments : List Value}
    (hcall : ∀ f ∈ fs.head?, ∃ t, J.within f t ∧ t.callee? = some g) :
    J.asks fs True (invoke p (evaluate p n) g arguments line) := by
  rcases hn.invoke_cases hp fs g arguments line with
    ⟨cause, hinvoke⟩ | ⟨given, body, hgiven, hbody, hreturns, hinvoke⟩
  · rw [hinvoke]
    exact asks_fault
  · rw [hinvoke]
    exact J.asks_frame hcall hgiven hbody hreturns

/-- A level of an expression is a visit, and then what comes to its value. -/
theorem yields_succ {t : Node} {d : Dialogue Value}
    (hstep : step p n (evaluate p n) t = (do
      let v ← d
      pure (.value v)))
    (hd : J.asks fs called d) : J.Yields fs called (evaluate p (n + 1) t) := by
  refine ⟨mark (.visit t) >>= fun _ => d, ?_, ?_⟩
  · exact asks_congr (J.asks_bind J.asks_visit fun _ => hd) (iff_of_eq (false_or _))
  · show (mark (.visit t) >>= fun _ => step p n (evaluate p n) t) = _
    rw [hstep]
    exact (bind_bind _ _ _).symm

/-- **One level up, an expression**, by the forms that there are. -/
theorem Level.expression_succ (hp : p.WellFormed) (hn : J.Level n) {t : Node} (h : IsExpression t)
    (ht : J.within f t) : J.Yields (f :: fs) (Calls t) (evaluate p (n + 1) t) := by
  cases h with
  -- leaves make no calls
  | @number x line =>
    refine yields_congr (yields_succ (d := .done (.number x)) rfl J.asks_done) ?_
    exact iff_of_false id (not_calls_leaf (by simp))
  | @text literal line =>
    refine yields_congr (yields_succ (d := .done (.text literal)) rfl J.asks_done) ?_
    exact iff_of_false id (not_calls_leaf (by simp))
  | identifier =>
    refine yields_congr (yields_succ rfl J.asks_lookUp) ?_
    exact iff_of_false id (not_calls_leaf (by simp))
  | @operator op line left right hleft hright =>
    have hl := hn.expression left f fs hleft (J.child ht List.mem_cons_self)
    have hr := hn.expression right f fs hright
      (J.child ht (List.mem_cons_of_mem _ List.mem_cons_self))
    exact yields_congr (yields_succ rfl (asks_operation hl hr)) (calls_binary (by simp)).symm
  | @call name line arguments h =>
    -- the arguments are asked before the call, and the caller calls the name
    have harguments := fun argument hmem =>
      hn.expression argument f fs (h argument hmem) (J.child ht hmem)
    have hcall : ∀ caller ∈ (f :: fs).head?, ∃ t, J.within caller t ∧ t.callee? = some name := by
      intro caller hcaller
      cases hcaller
      exact ⟨_, ht, rfl⟩
    refine yields_congr (yields_succ (d := do
      let vs ← valuesOf (evaluate p n) arguments
      invoke p (evaluate p n) name vs line) ?_ (J.asks_bind (asks_valuesOf harguments) fun vs =>
        hn.asks_invoke hp hcall)) (iff_of_true (Or.inr trivial) .here)
    exact (bind_bind _ _ _).symm

/-- **One level up, a statement**, by the forms that there are. -/
theorem Level.statement_succ (hn : J.Level n) {t : Node} (h : IsStatement t) (ht : J.within f t) :
    J.ends (f :: fs) (evaluate p (n + 1) t) := by
  -- what is known of blocks, values and conditions below the statement
  have hblock : ∀ {block}, IsBlock block → block ∈ t.children →
      J.ends (f :: fs) (evaluate p n block) :=
    fun h hmem => hn.statement _ f fs (.statement (.block h)) (J.child ht hmem)
  have hvalue : ∀ {value}, IsExpression value → value ∈ t.children →
      J.asks (f :: fs) (Calls value) (valueOf (evaluate p n) value) :=
    fun h hmem => asks_valueOf (hn.expression _ f fs h (J.child ht hmem))
  have htest : ∀ {test}, IsCondition test → test ∈ t.children →
      J.asks (f :: fs) (Calls test) (holds (evaluate p n) test) :=
    fun h hmem => asks_holds h (J.child ht hmem) fun e => hn.expression e f fs
  refine ends_of_asks J.asks_visit fun _ => ?_
  cases h with
  | assign h =>
    have hv := hvalue h (List.mem_cons_of_mem _ List.mem_cons_self)
    refine ends_of_asks (d := valueOf _ _) hv fun v => ?_
    exact J.ends_bind (d := assign _ v) (J.does_assign ht rfl) fun _ => J.ends_done
  | write h =>
    refine ends_of_asks (d := valueOf _ _) (hvalue h List.mem_cons_self) fun v => ?_
    exact J.ends_bind J.does_write fun _ => J.ends_done
  | read =>
    refine J.ends_bind (d := read _ _) J.does_read fun text => ?_
    exact J.ends_bind (J.does_assign ht rfl) fun _ => J.ends_done
  | whileLoop h hbody =>
    exact ends_loop (htest h List.mem_cons_self)
      (hblock hbody (List.mem_cons_of_mem _ List.mem_cons_self)) n
  | ifThen h hconsequence =>
    refine ends_of_asks (d := holds _ _) (htest h List.mem_cons_self) fun truth => ?_
    split
    · exact hblock hconsequence (List.mem_cons_of_mem _ List.mem_cons_self)
    · exact J.ends_done
  | ifThenElse h hconsequence halternative =>
    refine ends_of_asks (d := holds _ _) (htest h List.mem_cons_self) fun truth => ?_
    split
    · exact hblock hconsequence (List.mem_cons_of_mem _ List.mem_cons_self)
    · exact hblock halternative
        (List.mem_cons_of_mem _ (List.mem_cons_of_mem _ List.mem_cons_self))
  | returnValue h =>
    exact ends_of_asks (d := valueOf _ _) (hvalue h List.mem_cons_self) fun v => J.ends_returning
  | block h =>
    cases h with
    | statements h => exact hn.statement _ f fs (.statements h) (J.child ht List.mem_cons_self)

/-- **A judgement holds of all expressions and statements**, with any fuel. -/
theorem level (hp : p.WellFormed) (J : Judgement p) (n : Nat) : J.Level n := by
  induction n with
  | zero =>
    constructor
    · exact fun t f fs _ _ => ⟨.halt .outOfFuel, asks_outOfFuel, rfl⟩
    · exact fun t f fs _ _ => ends_outOfFuel
  | succ n ih =>
    constructor
    · exact fun t f fs h ht => ih.expression_succ hp h ht
    · intro t f fs h ht
      cases h with
      | statement h => exact ih.statement_succ h ht
      | statements h =>
        refine ends_of_asks J.asks_visit fun _ => ends_sequence fun u hmem => ?_
        exact ih.statement u f fs (.statement (h u hmem)) (J.child ht hmem)

/-- It holds of conditions, where they are decided. -/
theorem asks_condition (hp : p.WellFormed) (J : Judgement p) (n : Nat) (f : String)
    (fs : List String) {t : Node} (h : IsCondition t) (ht : J.within f t) :
    J.asks (f :: fs) (Calls t) (holds (evaluate p n) t) :=
  asks_holds h ht fun e => (J.level hp n).expression e f fs

/-- It holds of them also where they are evaluated for a value. -/
theorem asks_evaluate (hp : p.WellFormed) (J : Judgement p) (n : Nat) (f : String)
    (fs : List String) {t : Node} (h : IsCondition t) (ht : J.within f t) :
    J.asks (f :: fs) (Calls t) (evaluate p n t) := by
  cases h with
  | expression h => exact ((J.level hp n).expression t f fs h ht).asks
  | @comparison op line left right hleft hright =>
    cases n with
    | zero => exact asks_outOfFuel
    | succ n =>
      have hholds : J.asks (f :: fs) _
          (holds (evaluate p n) (.binary (.comparison op) left right line)) :=
        asks_condition hp J n f fs (.comparison hleft hright) ht
      refine asks_congr (J.asks_bind J.asks_visit fun _ => ?_) (iff_of_eq (false_or _))
      exact asks_then (d := holds _ _) hholds fun truth => J.asks_done

/-- It holds of runs, which call the entry point while no function is active. -/
theorem asks_run (hp : p.WellFormed) (J : Judgement p) (n : Nat) : J.asks [] True (run p n) := by
  unfold run
  split
  · exact J.asks_halt fun _ => nofun
  · refine asks_then ((J.level hp n).asks_invoke hp (by simp)) fun v => ?_
    exact asks_then J.asks_flush fun _ => J.asks_done

end Judgement
end Scriptlet
