import Scriptlet.Proofs.Session.Fuel
import Scriptlet.Proofs.Session.Safety
import Scriptlet.Proofs.Tree.CallRank

/-!
Programs without loops and recursion terminate.

A level of evaluation takes one unit of fuel, and leads to the nodes below or, at a call, to the body
of another function.  The nodes below are less high, and the function that is called has a smaller
rank.  So the rank times the height of the whole program, and the height of the node, is a measure
that goes down with every level (`settles_evaluate`).  It bounds the fuel: the number of functions
times the height of the program is always enough.

`Settles x` says that `x` does not run out of fuel, in whatever session.  What a level does with its
nodes is not looked at: it settles if the evaluations that it leads to do (`settles_step`).

That is the difference from the other statements about levels.  A judgement is about well-formed trees
and about what the helpers do, form by form; here any tree will do, and a malformed node settles by
halting.  What has to be known of each helper is only which evaluations it can lead to: children of
the node, and at a call, by name, the body of a function of the program.  The lemmas about `operand`
and `operands` say the first and `settles_invoke` the second.  A loop would lead to its own node
again, with fuel of its own that no measure of the tree bounds, so it is excluded.

The ranks are those of the call graph (`CallRank`): a function is ranked above all that it calls,
which is possible exactly if there is no recursion.

Main statement: `Program.terminates_of_unrecursive`.
-/

namespace Scriptlet

open Node

namespace Evaluation

variable {α β : Type}

/-- In no session does the evaluation run out of fuel. -/
def Settles (x : Evaluation α) : Prop :=
  ∀ s, Leads x s (fun _ _ => True) fun e _ => e ≠ .outOfFuel

section Rules

variable {x : Evaluation α} {f : α → Evaluation β}

theorem Settles.pure {a : α} : Settles (Pure.pure a : Evaluation α) := fun _ => Leads.pure trivial

theorem Settles.bind (hx : Settles x) (hf : ∀ a, Settles (f a)) : Settles (x >>= f) :=
  fun s => Leads.bind (hx s) fun a t _ => hf a t

/-- A look at the session needs none either. -/
theorem Settles.get_bind {f : Session → Evaluation α} (h : ∀ s, Settles (f s)) :
    Settles (get >>= f) :=
  fun s => Leads.get_bind (h s s)

/-- A fault is a halt, but not for want of fuel. -/
theorem Settles.fault {line : Nat} {cause : Cause} : Settles (fault line cause : Evaluation α) :=
  fun _ => Leads.throw (by simp)

theorem Settles.malformed {m : Malformation} : Settles (malformed m : Evaluation α) :=
  fun _ => Leads.throw (by simp)

end Rules

/-! ## The operations of a session

None of them needs fuel. -/

theorem settles_modify {g : Session → Session} : Settles (modify g) := fun _ => Leads.modify trivial

theorem settles_writeLine {line : Nat} {text : String} : Settles (writeLine line text) := by
  have hwrite : ∀ g : Session → Bool × Session, Settles (modifyGet g) := fun _ _ => trivial
  refine Settles.bind (hwrite _) fun accepted => ?_
  split
  · exact Settles.pure
  · exact Settles.fault

theorem settles_flush {line : Nat} : Settles (flush line) := by
  refine Settles.get_bind fun s => ?_
  split
  · exact Settles.fault
  · exact Settles.pure

theorem settles_nextLine {line : Nat} {name : String} : Settles (nextLine line name) := by
  refine Settles.get_bind fun s => ?_
  obtain ⟨bytes, rest⟩ := splitLine s.input
  dsimp only
  split
  · exact Settles.fault
  · have hset : Settles (set { s with input := rest } : Evaluation PUnit) := fun _ => trivial
    refine Settles.bind hset fun _ => ?_
    split
    · exact Settles.pure
    · exact Settles.fault

theorem settles_lookUp {name : String} {line : Nat} : Settles (lookUp name line) := by
  unfold lookUp
  split
  · exact Settles.pure
  · refine Settles.get_bind fun s => ?_
    split
    · exact Settles.pure
    · exact Settles.fault

/-! ## The parts of a node

What goes on with the parts of a node goes on with children of it. -/

variable {t : Node}

theorem settles_nameOf : Settles (nameOf t) := by
  unfold nameOf
  split
  · exact Settles.pure
  · exact Settles.malformed

/-- What goes on with an operand goes on with a child. -/
theorem settles_operand_bind {f : Node → Evaluation α} (h : ∀ u ∈ t.children, Settles (f u)) :
    Settles (operand t >>= f) := by
  unfold operand
  split
  · next u hfirst => exact h u (mem_of_first? hfirst)
  · exact fun _ => Leads.throw (by simp)

theorem settles_operands_bind {f : Node × Node → Evaluation α}
    (h : ∀ u ∈ t.children, ∀ v ∈ t.children, Settles (f (u, v))) : Settles (operands t >>= f) := by
  unfold operands
  split
  · next u v hfirst hsecond => exact h u (mem_of_first? hfirst) v (mem_of_second? hsecond)
  · exact fun _ => Leads.throw (by simp)

/-! ## One level

Each helper settles where the evaluations it leads to do. -/

variable {eval : Evaluator}

theorem settles_valueOf (h : Settles (eval t)) : Settles (valueOf eval t) := by
  refine Settles.bind h fun c => ?_
  split
  · exact Settles.pure
  · exact Settles.pure
  · exact Settles.malformed

theorem settles_valuesOf {nodes : List Node} (h : ∀ u ∈ nodes, Settles (eval u)) :
    Settles (valuesOf eval nodes) := by
  induction nodes with
  | nil => exact Settles.pure
  | cons u nodes ih =>
    obtain ⟨hu, hnodes⟩ := List.forall_mem_cons.1 h
    refine Settles.bind (settles_valueOf hu) fun value => ?_
    exact Settles.bind (ih hnodes) fun values => Settles.pure

theorem settles_numberOf {operator : String} (h : Settles (eval t)) :
    Settles (numberOf eval operator t) := by
  refine Settles.bind (settles_valueOf h) fun value => ?_
  split
  · exact Settles.pure
  · exact Settles.fault

theorem settles_operation {op : Operator} (h : ∀ u ∈ t.children, Settles (eval u)) :
    Settles (operation eval op t) := by
  refine settles_operands_bind fun u hu v hv => ?_
  dsimp only
  split
  · refine Settles.bind (settles_valueOf (h u hu)) fun a => ?_
    exact Settles.bind (settles_valueOf (h v hv)) fun b => Settles.pure
  · refine Settles.bind (settles_numberOf (h u hu)) fun x => ?_
    exact Settles.bind (settles_numberOf (h v hv)) fun y => Settles.pure

/-- A comparison leads to its operands. -/
theorem settles_comparison {op : Comparator} (hlabel : t.label = .comparison op)
    (h : ∀ u ∈ t.children, Settles (eval u)) : Settles (holds eval t) := by
  unfold holds
  rw [hlabel]
  refine settles_operands_bind fun u hu v hv => ?_
  refine Settles.bind (settles_numberOf (h u hu)) fun x => ?_
  exact Settles.bind (settles_numberOf (h v hv)) fun y => Settles.pure

/-- A condition leads to itself or, if it is a comparison, to its operands. -/
theorem settles_holds (h : ∀ u ∈ t.nodes, Settles (eval u)) : Settles (holds eval t) := by
  by_cases hcomparison : ∃ op, t.label = .comparison op
  · obtain ⟨op, hlabel⟩ := hcomparison
    exact settles_comparison hlabel fun u hu => h u (mem_nodes_of_child hu)
  · unfold holds
    split
    · next op hlabel => exact absurd ⟨op, hlabel⟩ hcomparison
    · exact Settles.bind (settles_numberOf (h t t.mem_nodes_self)) fun x => Settles.pure

theorem settles_assignAll {parameters : List Node} {arguments : List Value} :
    Settles (assignAll parameters arguments) := by
  induction parameters generalizing arguments with
  | nil => exact Settles.pure
  | cons parameter parameters ih =>
    cases arguments with
    | nil => exact Settles.pure
    | cons argument arguments =>
      exact Settles.bind settles_nameOf fun name => Settles.bind settles_modify fun _ => ih

theorem settles_sequence {nodes : List Node} (h : ∀ u ∈ nodes, Settles (eval u)) :
    Settles (sequence eval nodes) := by
  induction nodes with
  | nil => exact Settles.pure
  | cons u nodes ih =>
    obtain ⟨hu, hnodes⟩ := List.forall_mem_cons.1 h
    refine Settles.bind hu fun c => ?_
    split
    · exact Settles.pure
    · exact ih hnodes

variable {p : Program}

/-- A call leads to the body of the function. -/
theorem settles_invoke {name : String} {arguments : List Value} {line : Nat}
    (h : ∀ function, p.function? name = some function →
      ∀ body ∈ function.children, Settles (eval body)) :
    Settles (invoke p eval name arguments line) := by
  unfold invoke
  split
  · exact Settles.fault
  · next function hfunction =>
    split
    · exact Settles.pure
    · next body hbody =>
      have hmem := List.mem_of_getLast? hbody
      dsimp only
      split
      · exact Settles.fault
      · refine Settles.bind settles_modify fun _ => Settles.bind settles_modify fun _ => ?_
        refine Settles.bind settles_assignAll fun _ => ?_
        refine Settles.bind (h function hfunction body hmem) fun c => ?_
        split
        · exact Settles.pure
        · exact Settles.bind settles_modify fun _ => Settles.pure

/-- **One level settles** if all that it leads to settles: the nodes below, and the function that is
called.  Only a loop might go round for ever. -/
theorem settles_step {n : Nat} (hloop : t.label ≠ .whileLoop)
    (hbelow : ∀ u ∈ nodesOfAll t.children, Settles (eval u))
    (hcall : ∀ name, t.label = .call name → ∀ arguments line,
      Settles (invoke p eval name arguments line)) : Settles (step p n eval t) := by
  have hchild : ∀ u ∈ t.children, Settles (eval u) := fun u hu =>
    hbelow u (mem_nodesOfAll hu u.mem_nodes_self)
  -- a condition evaluates its operands, which are not children of `t`: so `hbelow` is about all
  -- descendants
  have hcondition : ∀ u ∈ t.children, Settles (holds eval u) := fun u hu =>
    settles_holds fun v hv => hbelow v (mem_nodesOfAll hu hv)
  obtain ⟨label, children, line⟩ := t
  unfold step
  cases label with
  | program => exact Settles.pure
  | function name => exact Settles.pure
  | block =>
    cases children with
    | nil => exact Settles.pure
    | cons statements others => exact hchild statements List.mem_cons_self
  | statements => exact settles_sequence hchild
  | assign =>
    refine settles_operands_bind fun target _ value hvalue => ?_
    refine Settles.bind (settles_valueOf (hchild value hvalue)) fun v => ?_
    refine Settles.bind settles_nameOf fun name => ?_
    exact Settles.bind settles_modify fun _ => Settles.pure
  | write =>
    refine settles_operand_bind fun value hvalue => ?_
    refine Settles.bind (settles_valueOf (hchild value hvalue)) fun v => ?_
    exact Settles.bind settles_writeLine fun _ => Settles.pure
  | read =>
    refine settles_operand_bind fun target _ => Settles.bind settles_nameOf fun name => ?_
    refine Settles.bind settles_nextLine fun text => ?_
    exact Settles.bind settles_modify fun _ => Settles.pure
  | whileLoop => exact absurd rfl hloop
  | ifThen =>
    refine settles_operands_bind fun test htest consequence hconsequence => ?_
    refine Settles.bind (hcondition test htest) fun truth => ?_
    split
    · exact hchild consequence hconsequence
    · split
      · next alternative halternative => exact hchild alternative (List.mem_of_getElem? halternative)
      · exact Settles.pure
  | returnValue =>
    refine settles_operand_bind fun value hvalue => ?_
    refine Settles.bind (settles_valueOf (hchild value hvalue)) fun v => ?_
    refine Settles.bind settles_modify fun _ => Settles.bind settles_modify fun _ => ?_
    exact Settles.pure
  | call name =>
    refine Settles.bind (settles_valuesOf hchild) fun arguments => ?_
    exact Settles.bind (hcall name rfl arguments line) fun v => Settles.pure
  | operator op => exact Settles.bind (settles_operation hchild) fun v => Settles.pure
  | comparison op =>
    exact Settles.bind (settles_comparison rfl hchild) fun truth => Settles.pure
  | number x => exact Settles.pure
  | text literal => exact Settles.pure
  | identifier name => exact Settles.bind settles_lookUp fun v => Settles.pure

/-! ## All levels -/

/-- The body of a function of a smaller rank is less deep. -/
theorem depth_body_lt {name : String} {function body : Node} {rank : Nat}
    (hf : p.function? name = some function) (hbody : body ∈ function.children)
    (hrank : p.callRank name < rank) :
    p.callRank name * p.root.height + body.height < rank * p.root.height := by
  have hheight : body.height < p.root.height :=
    Nat.lt_trans (height_lt_of_child hbody) (height_lt_of_child (mem_of_function? hf))
  have hmeasure := Nat.mul_le_mul_right p.root.height hrank
  rw [Nat.succ_mul] at hmeasure
  omega

/-- **The measure bounds the fuel.**  A level less takes a node below or a function of a smaller
rank, and in either case the measure is less by one at least. -/
theorem settles_evaluate (hloops : ∀ t ∈ p.root.nodes, t.label ≠ .whileLoop) (hp : p.Unrecursive)
    (n : Nat) : ∀ f t, p.Reaches f → p.Within f t →
      p.callRank f * p.root.height + t.height ≤ n → Settles (evaluate p n t) := by
  induction n with
  | zero =>
    intro f t _ _ hn
    have hpos := t.height_pos
    omega
  | succ n ih =>
    intro f t hf ht hn
    rw [evaluate_succ]
    refine settles_step (hloops t ht.mem_root) (fun u hu => ?_) fun name hlabel arguments line => ?_
    · have hlt := height_lt_of_below hu
      exact ih f u hf (ht.below hu) (by omega)
    · -- the function that is called
      have hcall : p.Calls f name := ht.calls (by rw [callee?, hlabel])
      refine settles_invoke fun function hfunction body hbody => ?_
      have hname := hf.tail hcall
      have hlt := depth_body_lt hfunction hbody
        (Program.callRank_lt_of_calls hcall (Program.mem_names_of_function? hfunction) (hp name hname))
      exact ih name body hname ⟨function, hfunction, mem_nodes_of_child hbody⟩ (by omega)

/-- The number of functions times the height of the program is enough fuel. -/
theorem settles_run (hloops : ∀ t ∈ p.root.nodes, t.label ≠ .whileLoop) (hp : p.Unrecursive)
    {fuel : Nat} (hfuel : p.functions.size * p.root.height ≤ fuel) : Settles (run p fuel) := by
  unfold run
  split
  · exact fun _ => Leads.throw (by simp)
  · refine Settles.bind (settles_invoke fun function hfunction body hbody => ?_) fun value => ?_
    · have hlt := depth_body_lt hfunction hbody
        (Program.callRank_lt_size (Program.mem_names_of_function? hfunction) (hp entryPoint .refl))
      exact settles_evaluate hloops hp fuel entryPoint body .refl
        ⟨function, hfunction, mem_nodes_of_child hbody⟩ (by omega)
    · exact Settles.bind settles_flush fun _ => Settles.pure

end Evaluation

namespace Program

open Evaluation

/-- **Programs without loops and recursion terminate**, with either discipline, whatever the input
and the output are and whatever has been done in the session before: a run comes to a value or to a
fault, with no more levels than the number of functions times the height of the program. -/
theorem terminates_of_unrecursive {source : String} {p : Program} (h : parse source = .ok p)
    (hloops : ∀ t ∈ p.root.nodes, t.label ≠ .whileLoop) (hp : p.Unrecursive) (s : Session) :
    p.Terminates s ∧ ∀ fuel, p.functions.size * p.root.height ≤ fuel →
      (∃ v, (p.runIn fuel s).1 = .ok v) ∨ ∃ e, (p.runIn fuel s).1 = .error (.fault e) := by
  have hends : ∀ fuel, p.functions.size * p.root.height ≤ fuel →
      (p.runIn fuel s).1 ≠ .error .outOfFuel := by
    intro fuel hfuel houtOfFuel
    have hsettles := settles_run hloops hp hfuel s
    unfold runIn at houtOfFuel
    split at houtOfFuel
    · cases houtOfFuel
    · next e t he =>
      cases houtOfFuel
      exact hsettles.of_error he rfl
  refine ⟨⟨_, _, _, rfl, hends _ (Nat.le_refl _)⟩, fun fuel hfuel => ?_⟩
  cases houtcome : (p.runIn fuel s).1 with
  | ok v => exact Or.inl ⟨v, rfl⟩
  | error e =>
    cases e with
    | fault e => exact Or.inr ⟨e, rfl⟩
    | malformed m => exact absurd houtcome ((wellFormed_of_parse h).runIn_ne_malformed fuel s m)
    | outOfFuel => exact absurd houtcome (hends fuel hfuel)

/-- It holds of a program that calls one function from another and within its own arguments, and has a
function that calls itself, which is never called. -/
theorem terminates_of_unrecursive_idle :
    ∃ p, parse ("fun main() { read(x); if (f(x) > 2) { write(f(f(x))) } } fun f(a) { return g(a) + 1 } " ++
        "fun g(b) { return b } fun idle() { return idle() }") = .ok p ∧
      (∀ t ∈ p.root.nodes, t.label ≠ .whileLoop) ∧ p.Unrecursive ∧
      ∀ s, p.Terminates s ∧ ∀ fuel, p.functions.size * p.root.height ≤ fuel →
        (∃ v, (p.runIn fuel s).1 = .ok v) ∨ ∃ e, (p.runIn fuel s).1 = .error (.fault e) := by
  let rank : String → Nat := fun f => if f = "main" then 2 else if f = "f" then 1 else 0
  have hchecked : (parse
      ("fun main() { read(x); if (f(x) > 2) { write(f(f(x))) } } fun f(a) { return g(a) + 1 } " ++
        "fun g(b) { return b } fun idle() { return idle() }")).toOption.any
        fun p => decide ((∀ t ∈ p.root.nodes, t.label ≠ .whileLoop) ∧
          ∀ f ∈ ["main", "f", "g"], ∀ g ∈ p.calledNames f, g ∈ ["main", "f", "g"] ∧
            rank g < rank f) := by
    decide +kernel
  obtain ⟨p, hok, hcheck⟩ := exists_of_any hchecked
  obtain ⟨hloops, hrank⟩ := of_decide_eq_true hcheck
  have hp : p.Unrecursive := unrecursive_of_rank _ rank List.mem_cons_self hrank
  exact ⟨p, hok, hloops, hp, terminates_of_unrecursive hok hloops hp⟩

end Program
end Scriptlet
