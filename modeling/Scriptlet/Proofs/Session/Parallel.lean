import Mathlib.Data.List.Forall2
import Scriptlet.Proofs.Session.Logic
import Scriptlet.Proofs.Simulation

/-!
Two evaluations that go the same way.

Two programs are evaluated side by side, or one program twice: in sessions that are related but not
equal, on trees that resemble each other, with different fuel, or with two evaluators of which one
looks more closely than the other.  When do they go the same way?  An evaluation does the same few
things over and over, so it is enough to know what becomes of two related sessions in each of them.
That is `Parallel`: it is settled where variables are looked up and assigned, where records are
handed out, and where the streams are used.

* `P d` relates the sessions while `d` functions are active.  It may depend on `d`, since a session
  has less to say once a function has returned.
* `V` is what is known of values.  Numbers have it, and `+` keeps it; a literal has it if the trees
  are related, a line if it is taken from related sessions, and so whatever a variable is given, and
  whatever an expression comes to.  Where nothing has to be known of values it is always true.
* `L` relates the lines of the two trees.

The induction is on the fuel, and in it the level is apart from what is below.  `Below` says that the
evaluators of the levels below go the same way on the nodes that are related by `ρ`.  Then so does
the level above, on nodes with the same label and related children: `Below.expression_step` for
expressions, `Below.statement_step` for statements, `Below.invoke` for calls.  The evaluators are
arbitrary there, so the same three lemmas serve `evaluate` and each of its variants; what is left to
a variant is what it does on top of a level (`Parallel.levels`).  The lists of statements are left to
the user, because a relation of trees may well relate lists of different lengths.

An expression is evaluated with one function active at least, and leaves as many active as there
were.  A statement that returns leaves one less (`unwound`), and the call that it ends has one less
anyway: it had entered the function.  That is why the two are claimed together and why neither could
be shown alone.
-/

namespace Scriptlet

open Node

/-- Both halts have the same reason.  The lines of faults may differ as far as `L` allows. -/
inductive Halt.Alike (L : Nat → Nat → Prop) : Halt → Halt → Prop where
  | onLine {cause : Cause} {line line' : Nat} (h : L line line') :
      Alike L (.fault (.onLine line cause)) (.fault (.onLine line' cause))
  | missingMain : Alike L (.fault ⟨.missingMain, none⟩) (.fault ⟨.missingMain, none⟩)
  | malformed {m : Malformation} : Alike L (.malformed m) (.malformed m)
  | outOfFuel : Alike L .outOfFuel .outOfFuel

/-- Halts on the same line for the same reason are equal. -/
theorem Halt.Alike.eq {e e' : Halt} (h : Alike Eq e e') : e = e' := by
  cases h with
  | onLine h => rw [h]
  | missingMain => rfl
  | malformed => rfl
  | outOfFuel => rfl

/-- Both streams accept the same from now on, whatever they have accepted so far. -/
structure Output.Alike (o o' : Output) : Prop where
  room : o.room = o'.room
  flushFails : o.flushFails = o'.flushFails

/-- Both accept the next bytes, or neither. -/
theorem Output.Alike.accepted {o o' : Output} (h : o.Alike o') (bytes : ByteArray) :
    (o.write bytes).1 = (o'.write bytes).1 := by
  unfold Output.write
  rw [h.room]
  cases o'.room with
  | none => rfl
  | some n =>
    dsimp only
    split <;> rfl

/-- The session after a record has been handed out and made the current one. -/
def Session.handOut (handout : Memory → Handout) (s : Session) : Session :=
  ⟨(handout s.memory).memory, (handout s.memory).record, s.input, s.output,
    s.log.addAll (handout s.memory).events⟩

/-! ## Values on their way -/

/-- What a property of values has to have: numbers have it, the value of a body that does not return
has it, and `+` keeps it. -/
structure Admits (V : Value → Prop) : Prop where
  number : ∀ x, V (.number x)
  none : V .none
  add : ∀ {a b}, V a → V b → V (a.add b)

/-- Nothing at all is claimed of values. -/
theorem Admits.all : Admits fun _ => True := ⟨fun _ => trivial, trivial, fun _ _ => trivial⟩

/-- The values that an event reports have the property. -/
def Event.All (V : Value → Prop) : Event → Prop
  | .calling _ arguments => ∀ v ∈ arguments, V v
  | .returning v => V v
  | _ => True

/-- The value that an evaluation ends with has the property. -/
def Completion.All (V : Value → Prop) : Completion → Prop
  | .normal => True
  | .value v | .returned v => V v

/-- How sessions are related after a statement that may return: by `R'` if it does, by `R` if not.
-/
def unwound {σ τ : Type} (R R' : σ → τ → Prop) : Completion → σ → τ → Prop
  | .returned _ => R'
  | _ => R

namespace Evaluation

variable {k : Terms Halt Halt Session Session} {L : Nat → Nat → Prop} {V : Value → Prop}
  {P : Nat → Session → Session → Prop} {α β : Type}

/-- What relations `P` of the sessions of two evaluations have to be like, one for each number of
active functions, where `V` is known of values: related sessions read, write and look up the same,
they stay related, and what enters them are values with `V`. -/
structure Parallel (k : Terms Halt Halt Session Session) (L : Nat → Nat → Prop) (V : Value → Prop)
    (P : Nat → Session → Session → Prop) : Prop where
  values : Admits V
  halted : ∀ {d s t e e'}, Halt.Alike L e e' → P d s t → k.matching e e' s t
  input : ∀ {d s t}, P d s t → s.input = t.input
  line : ∀ {d s t text}, P d s t → textOfBytes? (splitLine s.input).1 = some text →
    V (.ofText (lineContent text))
  advanced : ∀ {d s t}, P d s t →
    P d { s with input := (splitLine s.input).2 } { t with input := (splitLine t.input).2 }
  output : ∀ {d s t}, P d s t → s.output.Alike t.output
  written : ∀ {d s t} bytes, P d s t →
    P d { s with output := (s.output.write bytes).2 } { t with output := (t.output.write bytes).2 }
  logged : ∀ {d s t e}, e.All V → P d s t →
    P d { s with log := s.log.add e } { t with log := t.log.add e }
  found : ∀ {d s t} name, P (d + 1) s t →
    s.memory.find? s.current name = t.memory.find? t.current name
  stored : ∀ {d s t name v}, P (d + 1) s t → s.memory.find? s.current name = some v → V v
  assigned : ∀ {d s t v} name, V v → P (d + 1) s t →
    P (d + 1) { s with memory := s.memory.insert s.current name v }
      { t with memory := t.memory.insert t.current name v }
  entered : ∀ {d s t} name, P d s t →
    P (d + 1) (s.handOut (·.enter name)) (t.handOut (·.enter name))
  resumed : ∀ {d s t}, P (d + 1) s t → P d (s.handOut Memory.restore) (t.handOut Memory.restore)

/-- One session is related to itself. -/
theorem Parallel.eq (h : ∀ {e e' s}, Halt.Alike L e e' → k.matching e e' s s) :
    Parallel k L (fun _ => True) fun _ => Eq where
  values := .all
  halted he hs := by subst hs; exact h he
  input hs := by subst hs; rfl
  line _ _ := trivial
  advanced hs := by subst hs; rfl
  output hs := by subst hs; exact ⟨rfl, rfl⟩
  written _ hs := by subst hs; rfl
  logged _ hs := by subst hs; rfl
  found _ hs := by subst hs; rfl
  stored _ _ := trivial
  assigned _ _ hs := by subst hs; rfl
  entered _ hs := by subst hs; rfl
  resumed hs := by subst hs; rfl

/-- How much fuel two evaluations have: the same, or one of them less, and then its end is excused.
-/
def Fuelled (k : Terms Halt Halt Session Session) (n m : Nat) : Prop :=
  n = m ∨ (n ≤ m ∧ k.excused .outOfFuel) ∨ (m ≤ n ∧ k.excused' .outOfFuel)

/-- Fuel for a level is fuel for the one below. -/
theorem Fuelled.below {n m : Nat}
    (h : Fuelled k (n + 1) (m + 1)) : Fuelled k n m :=
  h.imp Nat.succ.inj
    (Or.imp (And.imp_left Nat.le_of_succ_le_succ) (And.imp_left Nat.le_of_succ_le_succ))

/-- The first has no fuel left. -/
theorem Fuelled.excused {m : Nat} (h : Fuelled k 0 (m + 1)) : k.excused .outOfFuel := by
  rcases h with heq | ⟨-, hexcused⟩ | ⟨hle, -⟩
  · cases heq
  · exact hexcused
  · cases hle

/-- The second has no fuel left. -/
theorem Fuelled.excused' {n : Nat} (h : Fuelled k (n + 1) 0) : k.excused' .outOfFuel := by
  rcases h with heq | ⟨hle, -⟩ | ⟨-, hexcused⟩
  · cases heq
  · cases hle
  · exact hexcused

/-- The evaluations have the same result and leave the sessions related as they were. -/
abbrev Kept (k : Terms Halt Halt Session Session) (R : Session → Session → Prop)
    (x y : Evaluation α) : Prop :=
  Simulates k R x y Eq fun _ => R

/-- The same, and the result is one with `W`. -/
abbrev Gives (k : Terms Halt Halt Session Session) (R : Session → Session → Prop) (W : α → Prop)
    (x y : Evaluation α) : Prop :=
  Simulates k R x y Eq fun a s t => W a ∧ R s t

section Rules

variable {R : Session → Session → Prop} {W : α → Prop} {x y : Evaluation α}

theorem kept_pure {a : α} : Kept k R (pure a) (pure a) := .pure rfl fun _ _ hR => hR

theorem gives_pure {a : α} (ha : W a) : Gives k R W (pure a) (pure a) :=
  .pure rfl fun _ _ hR => ⟨ha, hR⟩

/-- Less is claimed of the result. -/
theorem Gives.kept (h : Gives k R W x y) : Kept k R x y :=
  h.mono (fun _ _ hR => hR) (fun _ _ heq => heq) fun _ _ _ ha => ha.2

/-- A first part whose result is one with `W`. -/
theorem Gives.bind {f g : α → Evaluation β} {r : β → β → Prop} {Q : β → Session → Session → Prop}
    (hx : Gives k R W x y) (hf : ∀ a, W a → Simulates k R (f a) (g a) r Q) :
    Simulates k R (x >>= f) (y >>= g) r Q := by
  refine Simulates.bind_eq hx fun a s t ha => ?_
  exact hf a ha.1 s t ha.2

end Rules

/-! ## The operations of a session -/

section Operations

variable {d line line' : Nat}

/-- Faults on lines that are related. -/
theorem Parallel.fault (h : Parallel k L V P) (hline : L line line') {cause : Cause}
    {r : α → α → Prop} {Q : α → Session → Session → Prop} :
    Simulates k (P d) (fault line cause) (fault line' cause) r Q :=
  .throw fun _ _ hP => h.halted (.onLine hline) hP

/-- A node of the wrong shape halts both. -/
theorem Parallel.malformed (h : Parallel k L V P) {m : Malformation} {r : α → α → Prop}
    {Q : α → Session → Session → Prop} : Simulates k (P d) (malformed m) (malformed m) r Q :=
  .throw fun _ _ hP => h.halted .malformed hP

/-- Where the fuel ends for both or for one of the two. -/
theorem Parallel.outOfFuel (h : Parallel k L V P) {r : α → α → Prop}
    {Q : α → Session → Session → Prop} :
    Simulates k (P d) (throw .outOfFuel) (throw .outOfFuel) r Q :=
  .throw fun _ _ hP => h.halted .outOfFuel hP

/-- Both report the same event, and the log is related to nothing. -/
theorem Parallel.report (h : Parallel k L V P) {e : Event} (he : e.All V) :
    Kept k (P d) (report e) (report e) :=
  .modify fun _ _ hP => h.logged he hP

/-- Both assign the same value to the same name. -/
theorem Parallel.assign (h : Parallel k L V P) {name : String} {v : Value} (hv : V v) :
    Kept k (P (d + 1)) (assign name v) (assign name v) :=
  .modify fun _ _ hP => h.assigned name hv hP

/-- Entering a function makes one more active. -/
theorem Parallel.enter (h : Parallel k L V P) {name : String} :
    Simulates k (P d) (enter name) (enter name) Eq fun _ => P (d + 1) :=
  .modify fun _ _ hP => h.entered name hP

/-- Going on in the caller makes one less active. -/
theorem Parallel.resume (h : Parallel k L V P) :
    Simulates k (P (d + 1)) resume resume Eq fun _ => P d :=
  .modify fun _ _ hP => h.resumed hP

/-- A variable is found in both sessions or in neither, and what is found is a value with `V`. -/
theorem Parallel.lookUp (h : Parallel k L V P) (hline : L line line') {name : String} :
    Gives k (P (d + 1)) V (lookUp name line) (lookUp name line') := by
  unfold Evaluation.lookUp
  split
  · exact gives_pure (h.values.number _)
  · refine .get_bind fun s t hP => ?_
    rw [← h.found name hP]
    split
    · next v hv => exact gives_pure (h.stored hP hv)
    · exact h.fault hline

/-- A line is accepted by both streams or by neither. -/
theorem Parallel.writeLine (h : Parallel k L V P) (hline : L line line') {text : String} :
    Kept k (P d) (writeLine line text) (writeLine line' text) := by
  refine Simulates.bind_eq (.modifyGet (R := P d) fun s t hP => ⟨?_, ?_⟩) fun accepted => ?_
  · exact (h.output hP).accepted _
  · exact h.written _ hP
  · split
    · exact kept_pure
    · exact h.fault hline

theorem Parallel.flush (h : Parallel k L V P) (hline : L line line') :
    Kept k (P d) (flush line) (flush line') := by
  refine .get_bind fun s t hP => ?_
  rw [(h.output hP).flushFails]
  split
  · exact h.fault hline
  · exact kept_pure

/-- The next line is the same for both, and is classified as a value with `V`. -/
theorem Parallel.nextLine (h : Parallel k L V P) (hline : L line line') {name : String} :
    Gives k (P d) (fun text => V (.ofText text)) (nextLine line name) (nextLine line' name) := by
  refine .get_bind fun s t hP => ?_
  have hadvanced := h.advanced hP
  have htext : ∀ text, textOfBytes? (splitLine s.input).1 = some text →
      V (.ofText (lineContent text)) := fun text => h.line hP
  rw [← h.input hP] at hadvanced ⊢
  generalize splitLine s.input = split at hadvanced htext
  obtain ⟨bytes, rest⟩ := split
  dsimp only
  split
  · exact h.fault hline
  · refine Simulates.bind_eq (.set hadvanced) fun _ => ?_
    split
    · next text hbytes => exact gives_pure (htext text hbytes)
    · exact h.fault hline

end Operations

/-! ## Levels

What is known of the two trees, and of the evaluators of the levels below. -/

/-- The nodes have the same label, and their lines and their children are related.  A literal is a
value with `V`. -/
structure Resembles (L : Nat → Nat → Prop) (V : Value → Prop) (ρ : Node → Node → Prop)
    (t u : Node) : Prop where
  label : t.label = u.label
  literal : ∀ s, t.label = .text s → V (.text s)
  line : L t.line u.line
  children : List.Forall₂ ρ t.children u.children

/-- The expressions have the same value, one with `V`, and a message about one is a message about the
other. -/
structure SameValue (k : Terms Halt Halt Session Session) (L : Nat → Nat → Prop) (V : Value → Prop)
    (R : Session → Session → Prop) (eval eval' : Evaluator) (t u : Node) : Prop where
  label : t.label = u.label
  line : L t.line u.line
  gives : Gives k R (Completion.All V) (eval t) (eval' u)

/-- The statements go the same way, and when they return the sessions are related by `R'`. -/
abbrev SameEffect (k : Terms Halt Halt Session Session) (V : Value → Prop)
    (R R' : Session → Session → Prop) (x y : Evaluation Completion) : Prop :=
  Simulates k R x y Eq fun c s t => c.All V ∧ unwound R R' c s t

/-- The evaluators go the same way on nodes that are related by `ρ`, in any number of active
functions. -/
structure Below (k : Terms Halt Halt Session Session) (L : Nat → Nat → Prop) (V : Value → Prop)
    (P : Nat → Session → Session → Prop) (ρ : Node → Node → Prop) (eval eval' : Evaluator) :
    Prop where
  resembles : ∀ {t u}, ρ t u → t.label ≠ .statements → Resembles L V ρ t u
  expression : ∀ {t u} d, IsExpression t → ρ t u →
    Gives k (P (d + 1)) (Completion.All V) (eval t) (eval' u)
  statement : ∀ {t u} d, IsStatementOrList t → ρ t u →
    SameEffect k V (P (d + 1)) (P d) (eval t) (eval' u)

/-! ## Expressions

A part whose value is `v` is followed by what is done with `v`, and with it comes that `v` is a
value with `V`. -/

section Parts

variable {eval eval' : Evaluator} {ρ : Node → Node → Prop} {t u : Node} {d line line' : Nat}

/-- The value of an expression, from its evaluation. -/
theorem SameValue.valueOf (h : Parallel k L V P) (ht : SameValue k L V (P d) eval eval' t u) :
    Gives k (P d) V (valueOf eval t) (valueOf eval' u) := by
  refine ht.gives.bind fun c hc => ?_
  rw [ht.label]
  split
  · exact gives_pure hc
  · exact gives_pure hc
  · exact h.malformed

/-- The values of the operands have all the property. -/
theorem gives_valuesOf (h : Parallel k L V P) {nodes nodes' : List Node}
    (hnodes : List.Forall₂ (SameValue k L V (P d) eval eval') nodes nodes') :
    Gives k (P d) (fun values => ∀ v ∈ values, V v) (valuesOf eval nodes)
      (valuesOf eval' nodes') := by
  induction hnodes with
  | nil => exact gives_pure fun _ hv => absurd hv List.not_mem_nil
  | cons hnode _ ih =>
    refine (hnode.valueOf h).bind fun value hvalue => ih.bind fun values hvalues => ?_
    exact gives_pure (List.forall_mem_cons.2 ⟨hvalue, hvalues⟩)

/-- The number of an operand, or the same fault. -/
theorem SameValue.numberOf (h : Parallel k L V P) (ht : SameValue k L V (P d) eval eval' t u)
    {operator : String} : Kept k (P d) (numberOf eval operator t) (numberOf eval' operator u) := by
  refine (ht.valueOf h).bind fun value _ => ?_
  split
  · exact kept_pure
  · exact h.fault ht.line

/-- Only `+` can make a text, and it keeps the property. -/
theorem gives_operation (h : Parallel k L V P) {op : Operator} {left left' right right' : Node}
    (hleft : SameValue k L V (P d) eval eval' left left')
    (hright : SameValue k L V (P d) eval eval' right right') :
    Gives k (P d) V (operation eval op (.binary (.operator op) left right line))
      (operation eval' op (.binary (.operator op) left' right' line')) := by
  rw [operation_binary, operation_binary]
  split
  · refine (hleft.valueOf h).bind fun a ha => (hright.valueOf h).bind fun b hb => ?_
    exact gives_pure (h.values.add ha hb)
  · refine (hleft.numberOf h).bind_eq fun x => (hright.numberOf h).bind_eq fun y => ?_
    exact gives_pure (h.values.number _)

/-- Whatever is related to a list with something at its end has something at its end. -/
theorem forall₂_concat_left {β γ : Type} {R : β → γ → Prop} {xs : List β} {x : β} {ys : List γ}
    (h : List.Forall₂ R (xs ++ [x]) ys) :
    ∃ others y, ys = others ++ [y] ∧ List.Forall₂ R xs others ∧ R x y := by
  have hreverse := List.forall₂_reverse_iff.2 h
  rw [List.reverse_concat] at hreverse
  obtain ⟨y, others, hlast, hothers, hys⟩ := List.forall₂_cons_left_iff.1 hreverse
  refine ⟨others.reverse, y, ?_, ?_, hlast⟩
  · rw [← List.reverse_cons, ← hys, List.reverse_reverse]
  · rw [← List.forall₂_reverse_iff, List.reverse_reverse]
    exact hothers

/-- What is not labelled as a comparison is a condition by its number. -/
theorem holds_of_label (ht : ∀ op, t.label ≠ .comparison op) :
    holds eval t = (do
      let x ← numberOf eval "condition" t
      pure (x != 0)) := by
  unfold holds
  split
  · next op hop => exact absurd hop (ht op)
  · rfl

/-- A list of statements is labelled as one. -/
theorem label_ne_of_phrase {label : Label} (h : label.phrase ≠ .statement) :
    label ≠ .statements := by
  rintro rfl
  exact h rfl

/-- What is below an expression. -/
theorem Below.sameValue (hb : Below k L V P ρ eval eval') (ht : IsExpression t) (htu : ρ t u) :
    SameValue k L V (P (d + 1)) eval eval' t u := by
  have hresembles := hb.resembles htu (label_ne_of_phrase (by rw [ht.phrase]; decide))
  exact ⟨hresembles.label, hresembles.line, hb.expression d ht htu⟩

/-- A condition holds for both or for neither. -/
theorem Below.holds (hb : Below k L V P ρ eval eval') (h : Parallel k L V P) (ht : IsCondition t)
    (htu : ρ t u) : Kept k (P (d + 1)) (holds eval t) (holds eval' u) := by
  cases ht with
  | expression ht =>
    have hvalue := hb.sameValue (d := d) ht htu
    have hlabel : ∀ op, t.label ≠ .comparison op := by cases ht <;> exact fun _ => nofun
    rw [holds_of_label hlabel, holds_of_label (t := u) (hvalue.label ▸ hlabel)]
    exact (hvalue.numberOf h).bind_eq fun x => kept_pure
  | comparison hleft hright =>
    obtain ⟨label, children, line⟩ := u
    obtain ⟨rfl, -, -, hchildren⟩ := hb.resembles htu nofun
    rcases hchildren with _ | ⟨hl, _ | ⟨hr, ⟨⟩⟩⟩
    refine ((hb.sameValue hleft hl).numberOf h).bind_eq fun x => ?_
    exact ((hb.sameValue hright hr).numberOf h).bind_eq fun y => kept_pure

/-- The level of an expression above levels that go the same way. -/
theorem Below.expression_step (hb : Below k L V P ρ eval eval') (h : Parallel k L V P)
    {p q : Program} {n m : Nat}
    (hinvoke : ∀ name arguments line line', L line line' → (∀ v ∈ arguments, V v) →
      Gives k (P (d + 1)) V (invoke p eval name arguments line) (invoke q eval' name arguments line'))
    (ht : IsExpression t) (htu : ρ t u) :
    Gives k (P (d + 1)) (Completion.All V) (step p n eval t) (step q m eval' u) := by
  -- the label of an expression is not that of a list of statements, so the two nodes agree in label
  -- and children
  have hresembles := hb.resembles htu (label_ne_of_phrase (by rw [ht.phrase]; decide))
  obtain ⟨label, children, line⟩ := u
  obtain ⟨hlabel, hliteral, hline, hchildren⟩ := hresembles
  cases ht with
  | number =>
    cases hlabel
    exact gives_pure (h.values.number _)
  | text =>
    cases hlabel
    exact gives_pure (hliteral _ rfl)
  | identifier =>
    cases hlabel
    exact (h.lookUp hline).bind fun v hv => gives_pure hv
  | operator hleft hright =>
    cases hlabel
    rcases hchildren with _ | ⟨hl, _ | ⟨hr, ⟨⟩⟩⟩
    refine Gives.bind (gives_operation h (hb.sameValue hleft hl) (hb.sameValue hright hr)) ?_
    exact fun v hv => gives_pure hv
  | call harguments =>
    cases hlabel
    -- pairs of arguments, each an expression and the node it resembles
    have hvalues : List.Forall₂ (SameValue k L V (P (d + 1)) eval eval') _ children :=
      ((List.forall₂_and_left _ _).2 ⟨harguments, hchildren⟩).imp fun _ _ h => hb.sameValue h.1 h.2
    refine (gives_valuesOf h hvalues).bind fun values hvalues => ?_
    exact (hinvoke _ values _ _ hline hvalues).bind fun v hv => gives_pure hv

/-- The level of a comparison that is evaluated like an expression. -/
theorem Below.comparison_step (hb : Below k L V P ρ eval eval') (h : Parallel k L V P)
    {p q : Program} {n m : Nat} {op : Comparator} {left right : Node}
    (hleft : IsExpression left) (hright : IsExpression right)
    (htu : ρ (.binary (.comparison op) left right line) u) :
    Gives k (P (d + 1)) (Completion.All V) (step p n eval (.binary (.comparison op) left right line))
      (step q m eval' u) := by
  have hholds := hb.holds (d := d) h (.comparison hleft hright) htu
  have hlabel := (hb.resembles htu nofun).label
  obtain ⟨label, children, line'⟩ := u
  cases hlabel
  exact hholds.bind_eq fun truth => gives_pure (h.values.number _)

/-! ## Statements

What is claimed after a statement depends on how it ends, so a sequence of statements goes on with
what is claimed of one that has not returned. -/

/-- A statement, and what comes after it if it does not return. -/
theorem simulates_followed {R R' : Session → Session → Prop} {x y z w : Evaluation Completion}
    (hx : SameEffect k V R R' x y) (hz : SameEffect k V R R' z w) :
    SameEffect k V R R'
      (do
        match ← x with
        | .returned v => pure (.returned v)
        | _ => z)
      (do
        match ← y with
        | .returned v => pure (.returned v)
        | _ => w) := by
  refine hx.bind_eq fun c => ?_
  cases c with
  | returned v => exact .pure rfl fun _ _ h => h
  | normal => exact hz.mono (fun _ _ h => h.2) (fun _ _ h => h) fun _ _ _ h => h
  | value v => exact hz.mono (fun _ _ h => h.2) (fun _ _ h => h) fun _ _ _ h => h

theorem sameEffect_normal {R R' : Session → Session → Prop} :
    SameEffect k V R R' (pure .normal) (pure .normal) :=
  .pure rfl fun _ _ hR => ⟨trivial, hR⟩

/-- Statements in order, in two lists of the same length. -/
theorem simulates_sequence {R R' : Session → Session → Prop} {nodes nodes' : List Node}
    (h : List.Forall₂ (fun a b => SameEffect k V R R' (eval a) (eval' b)) nodes nodes') :
    SameEffect k V R R' (sequence eval nodes) (sequence eval' nodes') := by
  induction h with
  | nil => exact sameEffect_normal
  | cons hnode _ ih => exact simulates_followed hnode ih

/-- A loop goes round as often as there is fuel for both. -/
theorem simulates_loop (h : Parallel k L V P) {test test' : Evaluation Bool}
    {body body' : Evaluation Completion} (htest : Kept k (P (d + 1)) test test')
    (hbody : SameEffect k V (P (d + 1)) (P d) body body') {n m : Nat} (hfuel : Fuelled k n m) :
    SameEffect k V (P (d + 1)) (P d) (loop test body n) (loop test' body' m) := by
  induction n generalizing m with
  | zero =>
    cases m with
    | zero => exact h.outOfFuel
    | succ m => exact .excuse hfuel.excused
  | succ n ih =>
    cases m with
    | zero => exact .excuse' hfuel.excused'
    | succ m =>
      refine htest.bind_eq fun truth => ?_
      split
      · exact simulates_followed hbody (ih hfuel.below)
      · exact sameEffect_normal

/-- A block is a statement of the level below. -/
theorem Below.block (hb : Below k L V P ρ eval eval') {block block' : Node} (h : IsBlock block)
    (hρ : ρ block block') : SameEffect k V (P (d + 1)) (P d) (eval block) (eval' block') :=
  hb.statement d (.statement (.block h)) hρ

/-- The level of a statement above levels that go the same way. -/
theorem Below.statement_step (hb : Below k L V P ρ eval eval') (h : Parallel k L V P)
    {p q : Program} {n m : Nat} (hfuel : Fuelled k n m) (ht : IsStatement t) (htu : ρ t u) :
    SameEffect k V (P (d + 1)) (P d) (step p n eval t) (step q m eval' u) := by
  -- only lists of statements may be longer or shorter than their counterparts, and `t` is none
  have hstatements : t.label ≠ .statements := by
    cases ht with
    | block hblock => cases hblock; nofun
    | _ => nofun
  obtain ⟨label, children, line⟩ := u
  obtain ⟨hlabel, -, hline, hchildren⟩ := hb.resembles htu hstatements
  -- `hlabel` gives `u` the label of `t`, and `hchildren` as many children
  cases ht with
  | assign hvalue =>
    cases hlabel
    rcases hchildren with _ | @⟨_, target, _, _, htarget, _ | ⟨hv, ⟨⟩⟩⟩
    obtain ⟨targetLabel, _, _⟩ := target
    cases (hb.resembles htarget nofun).label
    refine ((hb.sameValue hvalue hv).valueOf h).bind fun v hv => ?_
    show SameEffect k V _ _ (do assign _ v; pure .normal) (do assign _ v; pure .normal)
    exact (h.assign hv).bind_eq fun _ => sameEffect_normal
  | write hvalue =>
    cases hlabel
    rcases hchildren with _ | ⟨hv, ⟨⟩⟩
    refine ((hb.sameValue hvalue hv).valueOf h).bind fun v _ => ?_
    exact (h.writeLine hline).bind_eq fun _ => sameEffect_normal
  | read =>
    cases hlabel
    rcases hchildren with _ | @⟨_, target, _, _, htarget, ⟨⟩⟩
    obtain ⟨targetLabel, _, _⟩ := target
    cases (hb.resembles htarget nofun).label
    refine (h.nextLine hline).bind fun text htext => ?_
    exact (h.assign htext).bind_eq fun _ => sameEffect_normal
  | whileLoop htest hbody =>
    cases hlabel
    rcases hchildren with _ | ⟨ht, _ | ⟨hbl, ⟨⟩⟩⟩
    exact simulates_loop h (hb.holds h htest ht) (hb.block hbody hbl) hfuel
  | ifThen htest hconsequence =>
    cases hlabel
    rcases hchildren with _ | ⟨ht, _ | ⟨hc, ⟨⟩⟩⟩
    refine (hb.holds h htest ht).bind_eq fun truth => ?_
    split
    · exact hb.block hconsequence hc
    · exact sameEffect_normal
  | ifThenElse htest hconsequence halternative =>
    cases hlabel
    rcases hchildren with _ | ⟨ht, _ | ⟨hc, _ | ⟨ha, ⟨⟩⟩⟩⟩
    refine (hb.holds h htest ht).bind_eq fun truth => ?_
    split
    · exact hb.block hconsequence hc
    · exact hb.block halternative ha
  | returnValue hvalue =>
    cases hlabel
    rcases hchildren with _ | ⟨hv, ⟨⟩⟩
    refine ((hb.sameValue hvalue hv).valueOf h).bind fun v hv => h.resume.bind_eq fun _ => ?_
    exact (h.report (e := .returning v) hv).bind_eq fun _ => .pure rfl fun _ _ hP => ⟨hv, hP⟩
  | block hblock =>
    cases hblock with
    | statements hnodes =>
      cases hlabel
      rcases hchildren with _ | ⟨hs, ⟨⟩⟩
      exact hb.statement d (.statements hnodes) hs

/-- The level of a statement or of a list, where lists are related statement by statement. -/
theorem Below.statementOrList_step (hb : Below k L V P ρ eval eval') (h : Parallel k L V P)
    (hρ : ∀ {t u}, ρ t u → Resembles L V ρ t u) {p q : Program} {n m : Nat}
    (hfuel : Fuelled k n m) (ht : IsStatementOrList t) (htu : ρ t u) :
    SameEffect k V (P (d + 1)) (P d) (step p n eval t) (step q m eval' u) := by
  cases ht with
  | statement ht => exact hb.statement_step h hfuel ht htu
  | statements hnodes =>
    obtain ⟨label, children, line⟩ := u
    obtain ⟨hlabel, -, -, hchildren⟩ := hρ htu
    cases hlabel
    apply simulates_sequence
    refine ((List.forall₂_and_left _ _).2 ⟨hnodes, hchildren⟩).imp fun _ _ hab => ?_
    exact hb.statement d (.statement hab.1) hab.2

/-! ## Calls

A call needs no function to be active: it is the call that makes one active. -/

/-- Every name is declared in both programs, with functions that are related, or in neither. -/
def SameFunctions (ρ : Node → Node → Prop) (p q : Program) : Prop :=
  ∀ name, Option.Rel ρ (p.function? name) (q.function? name)

/-- A name is declared in both programs or in neither. -/
theorem SameFunctions.cases {p q : Program} (h : SameFunctions ρ p q) (name : String) :
    (p.function? name = none ∧ q.function? name = none) ∨
      ∃ function function', p.function? name = some function ∧
        q.function? name = some function' ∧ ρ function function' := by
  have hname := h name
  generalize p.function? name = x at hname
  generalize q.function? name = y at hname
  cases hname with
  | none => exact Or.inl ⟨rfl, rfl⟩
  | some hρ => exact Or.inr ⟨_, _, rfl, rfl, hρ⟩

/-- The parameters of related functions have the same names, and get the same arguments. -/
theorem kept_assignAll (h : Parallel k L V P) {parameters parameters' : List Node}
    (hnames : ∀ parameter ∈ parameters, IsName parameter)
    (hlabels : List.Forall₂ (fun a b => a.label = b.label) parameters parameters')
    {arguments : List Value} (harguments : ∀ v ∈ arguments, V v) :
    Kept k (P (d + 1)) (assignAll parameters arguments) (assignAll parameters' arguments) := by
  induction hlabels generalizing arguments with
  | nil => exact kept_pure
  | @cons parameter parameter' _ _ hlabel _ ih =>
    obtain ⟨hname, hothers⟩ := List.forall_mem_cons.1 hnames
    cases arguments with
    | nil => exact kept_pure
    | cons argument arguments =>
      obtain ⟨hargument, harguments⟩ := List.forall_mem_cons.1 harguments
      cases hname
      obtain ⟨label, _, _⟩ := parameter'
      cases hlabel
      exact (h.assign hargument).bind_eq fun _ => ih hothers harguments

/-- A call of functions that are related, or of a name that has none. -/
theorem Below.invoke (hb : Below k L V P ρ eval eval') (h : Parallel k L V P) {p q : Program}
    (hp : p.WellFormed) (hpq : SameFunctions ρ p q) {name : String} {arguments : List Value}
    (hline : L line line') (harguments : ∀ v ∈ arguments, V v) :
    Gives k (P d) V (invoke p eval name arguments line) (invoke q eval' name arguments line') := by
  rcases hpq.cases name with ⟨hf, hq⟩ | ⟨function, function', hf, hq, hρ⟩
  · unfold Evaluation.invoke
    rw [hf, hq]
    exact h.fault hline
  · cases hp.functions _ (mem_of_function? hf) with
    | @function _ _ brace list last parameters nodes hparameters hnodes =>
      obtain ⟨label', children', own'⟩ := function'
      obtain ⟨-, -, -, hchildren⟩ := hb.resembles hρ nofun
      obtain ⟨parameters', body', rfl, hnames, hbody⟩ := forall₂_concat_left hchildren
      rw [invoke_of_function? hf, invoke_of_function? hq, ← hnames.length_eq]
      split
      · exact h.fault hline
      · refine (h.report (e := .calling name arguments) harguments).bind_eq fun _ => ?_
        refine h.enter.bind_eq fun _ => ?_
        refine (kept_assignAll h hparameters ?_ harguments).bind_eq fun _ => ?_
        · refine ((List.forall₂_and_left _ _).2 ⟨hparameters, hnames⟩).imp fun a b hab => ?_
          exact (hb.resembles hab.2 (by cases hab.1; nofun)).label
        -- a body that returns has handed the record of the caller out already
        · refine (hb.block (isBlock_body brace list last hnodes) hbody).bind_eq fun c => ?_
          have hnone : Simulates k (P (d + 1)) (do resume; pure Value.none)
              (do resume; pure Value.none) Eq fun v s t => V v ∧ P d s t :=
            h.resume.bind_eq fun _ => gives_pure h.values.none
          cases c with
          | returned v => exact .pure rfl fun _ _ hP => hP
          | normal => exact hnone.mono (fun _ _ hP => hP.2) (fun _ _ h => h) fun _ _ _ h => h
          | value v => exact hnone.mono (fun _ _ hP => hP.2) (fun _ _ h => h) fun _ _ _ h => h

end Parts

/-! ## All levels

Two evaluators with fuel.  Each begins with a level of evaluation and may do more on top of it. -/

section Levels

variable {ρ : Node → Node → Prop} {p q : Program}

/-- **From the level to all levels.**  What is related resembles each other, lists of statements
included, and where the levels below go the same way this level does. -/
theorem Parallel.levels (h : Parallel k L V P) (hρ : ∀ {t u}, ρ t u → Resembles L V ρ t u)
    {eval eval' : Nat → Evaluator} (hzero : ∀ t, eval 0 t = throw .outOfFuel)
    (hzero' : ∀ t, eval' 0 t = throw .outOfFuel)
    (hexpression : ∀ {n m}, Below k L V P ρ (eval n) (eval' m) → Fuelled k n m → ∀ {t u} d,
      IsExpression t → ρ t u →
        Gives k (P (d + 1)) (Completion.All V) (eval (n + 1) t) (eval' (m + 1) u))
    (hstatement : ∀ {n m}, Below k L V P ρ (eval n) (eval' m) → Fuelled k n m → ∀ {t u} d,
      IsStatementOrList t → ρ t u →
        SameEffect k V (P (d + 1)) (P d) (eval (n + 1) t) (eval' (m + 1) u))
    {n m : Nat} (hfuel : Fuelled k n m) : Below k L V P ρ (eval n) (eval' m) := by
  induction n generalizing m with
  | zero =>
    refine ⟨fun htu _ => hρ htu, fun d _ _ => ?_, fun d _ _ => ?_⟩
    all_goals
      rw [hzero]
      cases m with
      | zero =>
        rw [hzero']
        exact h.outOfFuel
      | succ m => exact .excuse hfuel.excused
  | succ n ih =>
    cases m with
    | zero =>
      -- only one of the two has fuel left, and the end of the other is excused
      refine ⟨fun htu _ => hρ htu, fun d _ _ => ?_, fun d _ _ => ?_⟩
      all_goals
        rw [hzero']
        exact .excuse' hfuel.excused'
    | succ m =>
      have hb := ih hfuel.below
      exact ⟨fun htu _ => hρ htu, hexpression hb hfuel.below, hstatement hb hfuel.below⟩

/-- Two evaluations of programs whose trees resemble each other. -/
theorem Parallel.level (h : Parallel k L V P) (hp : p.WellFormed)
    (hρ : ∀ {t u}, ρ t u → Resembles L V ρ t u) (hpq : SameFunctions ρ p q) {n m : Nat}
    (hfuel : Fuelled k n m) : Below k L V P ρ (evaluate p n) (evaluate q m) := by
  refine h.levels hρ (fun _ => rfl) (fun _ => rfl) ?_ ?_ hfuel
  · intro n m hb _ t u d ht htu
    -- a call has the level below for its body, so it needs no more fuel than an operand
    refine hb.expression_step h ?_ ht htu
    exact fun name arguments line line' hline hv => hb.invoke h hp hpq hline hv
  · intro n m hb hfuel t u d ht htu
    exact hb.statementOrList_step h hρ hfuel ht htu

/-- A tree beside itself. -/
theorem resembles_eq {t u : Node} (h : t = u) : Resembles Eq (fun _ => True) Eq t u := by
  subst h
  exact ⟨rfl, fun _ _ => trivial, rfl, List.forall₂_same.2 fun _ _ => rfl⟩

/-- A program beside itself. -/
theorem sameFunctions_of_mem (h : ∀ function ∈ p.root.children, ρ function function) :
    SameFunctions ρ p p := by
  intro name
  cases hf : p.function? name with
  | none => exact .none
  | some function => exact .some (h function (mem_of_function? hf))

/-- Equal functions, where a program is compared with itself. -/
theorem sameFunctions_eq : SameFunctions Eq p p := sameFunctions_of_mem fun _ _ => rfl

/-- The call of the entry point, with any evaluator. -/
def start (p : Program) (eval : Evaluator) : Evaluation Value :=
  match p.function? entryPoint with
  | none => throw (.fault ⟨.missingMain, none⟩)
  | some function => do
    let value ← invoke p eval entryPoint [] function.line
    flush function.line
    pure value

/-- Runs start outside of any function and end there. -/
theorem Below.start (h : Parallel k L V P) (hp : p.WellFormed) {eval eval' : Evaluator}
    (hb : Below k L V P ρ eval eval') (hpq : SameFunctions ρ p q) :
    Gives k (P 0) V (start p eval) (start q eval') := by
  unfold Evaluation.start
  rcases hpq.cases entryPoint with ⟨hf, hq⟩ | ⟨function, function', hf, hq, hρ⟩
  · rw [hf, hq]
    exact .throw fun _ _ hP => h.halted .missingMain hP
  · have hfunction := hp.functions _ (mem_of_function? hf)
    have hline := (hb.resembles hρ (label_ne_of_phrase (by rw [hfunction.phrase]; decide))).line
    rw [hf, hq]
    refine (hb.invoke h hp hpq hline fun _ hv => absurd hv List.not_mem_nil).bind fun value hv => ?_
    exact (h.flush hline).bind_eq fun _ => gives_pure hv

/-- A whole run, from sessions in which no function is active. -/
theorem Below.run (h : Parallel k L V P) (hp : p.WellFormed) {n m : Nat}
    (hb : Below k L V P ρ (evaluate p n) (evaluate q m)) (hpq : SameFunctions ρ p q) :
    Gives k (P 0) V (run p n) (run q m) :=
  hb.start h hp hpq

end Levels

end Evaluation
end Scriptlet
