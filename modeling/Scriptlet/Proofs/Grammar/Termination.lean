import Mathlib.Logic.Relation
import Mathlib.Order.RelClasses
import Scriptlet.Proofs.Grammar.Completeness.Program
import Scriptlet.Proofs.Grammar.Procedures

/-!
Reading terminates on every text.

Without fuel a procedure is what its body says, with the same procedures called.  There is exactly one
way of carrying them out so (`carryOut`), and it ends from every state, with a result or an error; the
fuel only ever cuts it off (`run_eq_or`).

`carryOut` gives each procedure one unit of fuel more than its measure.  That this is enough is an
induction on the measure with `body_agrees`: a call has a smaller measure and one unit of fuel less,
so what was enough still is (`run_agrees_carryOut`).  Then more fuel changes nothing, and the
recursion equation holds with the procedures themselves in it and no fuel at all (`carryOut_eq_body`).
Any other solution of the equation agrees with this one, again by induction on the measure
(`eq_carryOut`).

A call is made by a procedure if nothing comes of the procedure once that call is not answered
(`Calls`), and every call lowers the measure (`measure_lt_of_calls`).  So of two nested calls of one
procedure the inner one has fewer tokens before it, or as many and the flag cleared.  This way of
saying that a call is made needs no trace of the reading: it compares the procedure with one that is
the same but for that call (`without`).

The last is what happens in a list of statements after a block: a round that takes no token
(`calls_of_idle`).  So the flag has to be part of the measure, and the tokens alone would not do.

Main statement: `reading_terminates`.
-/

namespace Scriptlet
namespace Reading

open Relation

variable {p q : Procedure} {r s : Reader}

/-! ## The procedures without fuel

The fuel is an artefact of the definition.  With it gone there is one way of carrying the
procedures out, and it ends. -/

/-- With enough fuel it makes no difference how much there is, and with less a procedure can only
run out of it. -/
theorem run_agrees {m : Nat} (hm : p.measure r < m) (n : Nat) :
    Agrees (n ≤ p.measure r) (run n p) (run m p) r fun _ s => s.remaining + p.least ≤ r.remaining := by
  generalize hd : p.measure r = d at hm
  induction d using Nat.strongRecOn generalizing p r m n with
  | ind d ih =>
    subst hd
    rcases run_cases m p with ⟨rfl, -⟩ | ⟨m', hm', hmbody⟩
    · exact absurd hm (Nat.not_lt_zero _)
    rcases run_cases n p with ⟨rfl, hout⟩ | ⟨n', hn', hnbody⟩
    · exact Or.inl ⟨Nat.zero_le _, r, hout r⟩
    -- a call has a smaller measure and a unit of fuel less, so what was enough still is
    rw [hnbody, hmbody]
    refine body_agrees fun q s hq => ?_
    exact (ih _ hq n' rfl (by omega)).mono (fun hn => by omega) fun _ _ h => h

/-- What a procedure comes to when it is carried out to its end. -/
def carryOut : Carrier := fun p r => run (p.measure r + 1) p r

/-- With more fuel than the measure the procedures are carried out to the end, and with less they
come to the same or run out. -/
theorem run_agrees_carryOut (n : Nat) (p : Procedure) (r : Reader) :
    Agrees (n ≤ p.measure r) (run n p) (carryOut p) r
      fun _ s => s.remaining + p.least ≤ r.remaining :=
  (run_agrees (Nat.lt_succ_self (p.measure r)) n).congr_right rfl

theorem ends_carryOut (p : Procedure) (r : Reader) :
    Ends (carryOut p) r fun _ s => s.remaining + p.least ≤ r.remaining := by
  rcases run_agrees_carryOut (p.measure r + 1) p r with ⟨hexcused, -⟩ | ⟨-, hends⟩
  · exact absurd hexcused (Nat.not_succ_le_self _)
  · exact hends

/-- **A procedure does what its body says**, with the same procedures called. -/
theorem carryOut_eq_body (p : Procedure) : carryOut p = body carryOut p := by
  funext r
  rcases run_cases (p.measure r + 1) p with ⟨hzero, -⟩ | ⟨n, hn, hbody⟩
  · exact absurd hzero (Nat.succ_ne_zero _)
  have hbelow : AgreesBelow False (run n) carryOut p r := fun q s hq =>
    (run_agrees_carryOut n q s).mono (fun hle => by omega) fun _ _ h => h
  rcases body_agrees hbelow with ⟨hfalse, -⟩ | ⟨hsame, -⟩
  · exact hfalse.elim
  · rw [← hsame, ← hbody, carryOut]

/-- **There is no other way** to do what the bodies say. -/
theorem eq_carryOut {call : Carrier} (h : ∀ p, call p = body call p) : call = carryOut := by
  have hagrees : ∀ d p r, p.measure r = d → Procedure.Agrees False call carryOut p r := by
    intro d
    induction d using Nat.strongRecOn with
    | ind d ih =>
      rintro p r rfl
      unfold Procedure.Agrees
      rw [h p, carryOut_eq_body p]
      exact body_agrees fun q s hq => ih _ hq q s rfl
  funext p r
  rcases hagrees _ p r rfl with ⟨hfalse, -⟩ | ⟨hsame, -⟩
  · exact hfalse.elim
  · exact hsame

/-- A procedure with fuel is cut off, or it does the same as without. -/
theorem run_eq_or (n : Nat) (p : Procedure) (r : Reader) :
    run n p r = carryOut p r ∨ n ≤ p.measure r ∧ ∃ s, run n p r = .error .outOfFuel s := by
  rcases run_agrees_carryOut n p r with hout | ⟨hsame, -⟩
  · exact Or.inr hout
  · exact Or.inl hsame

/-- A reading that ends has a result or an error. -/
theorem exists_of_ends {α : Type} {x : Reading α} {post : α → Reader → Prop} (h : Ends x r post) :
    (∃ a s, x r = .ok a s ∧ post a s) ∨ ∃ e s, x r = .error (.failed e) s := by
  unfold Ends at h
  cases hx : x r with
  | ok a s =>
    rw [hx] at h
    exact Or.inl ⟨a, s, rfl, h⟩
  | error e s =>
    rw [hx] at h
    cases e with
    | failed e => exact Or.inr ⟨e, s, rfl⟩
    | outOfFuel => exact h.elim

/-- A whole program is read with the declarations carried out to their end. -/
theorem program_eq : program = (do
    let r ← get
    let functions ← carryOut .declarations
    let s ← get
    if s.kind = .finish then pure (.ofDeclarations r.line functions)
    else fail s.line .trailingInput) := by
  funext r
  have hsame : declarations (6 * r.left + 1) r = carryOut .declarations r := by
    rcases run_eq_or (6 * r.left + 1) .declarations r with hsame | ⟨-, s, hout⟩
    · exact hsame
    · have hends := ends_declarations _ r (Nat.lt_succ_self _)
      rw [Ends, show declarations (6 * r.left + 1) r = _ from hout] at hends
      exact hends.elim
  unfold program
  rw [get_bind_apply, get_bind_apply]
  simp only [Bind.bind, EStateM.bind, hsame]

/-! ## The calls that are made

A procedure makes a call if it comes to nothing once this call alone is not answered. -/

open Classical in
/-- The procedures carried out to their end, but for `q` in the state `s`, which is not answered. -/
noncomputable def without (q : Procedure) (s : Reader) : Carrier := fun q' s' =>
  if q' = q ∧ s' = s then .error .outOfFuel s' else carryOut q' s'

/-- In the state `r` the procedure `p` calls `q` in the state `s`: it comes to nothing if that is not
answered. -/
def Calls (p : Procedure) (r : Reader) (q : Procedure) (s : Reader) : Prop :=
  ∃ t, body (without q s) p r = .error .outOfFuel t

theorem without_of_ne {q' : Procedure} {s' : Reader} (h : ¬ (q' = q ∧ s' = s)) :
    without q s q' s' = carryOut q' s' := if_neg h

theorem without_self : without q s q s = .error .outOfFuel s := if_pos ⟨rfl, rfl⟩

/-- A call that is not made has no influence. -/
theorem calls_or (p : Procedure) (r : Reader) (q : Procedure) (s : Reader) :
    Calls p r q s ∨ body (without q s) p r = carryOut p r := by
  have hbelow : AgreesBelow True (without q s) carryOut p r := by
    intro q' s' _
    by_cases heq : q' = q ∧ s' = s
    · obtain ⟨rfl, rfl⟩ := heq
      exact Or.inl ⟨trivial, _, without_self⟩
    · exact Or.inr ⟨without_of_ne heq, ends_carryOut q' s'⟩
  rcases body_agrees hbelow with ⟨-, hout⟩ | ⟨hsame, -⟩
  · exact Or.inl hout
  · exact Or.inr (hsame.trans (congrFun (carryOut_eq_body p) r).symm)

/-- **Every call lowers the measure.** -/
theorem measure_lt_of_calls (h : Calls p r q s) : q.measure s < p.measure r := by
  by_contra hge
  -- then the call that is not answered is none of those that the body depends on
  have hbelow : AgreesBelow False (without q s) carryOut p r := by
    intro q' s' hlt
    refine Or.inr ⟨without_of_ne ?_, ends_carryOut q' s'⟩
    rintro ⟨rfl, rfl⟩
    exact hge hlt
  obtain ⟨t, ht⟩ := h
  rcases body_agrees hbelow with ⟨hfalse, -⟩ | ⟨hsame, -⟩
  · exact hfalse
  · have hends := ends_carryOut p r
    rw [carryOut_eq_body, Ends, ← hsame, ht] at hends
    exact hends

/-- The calls that are open at one time: each is made by the one before. -/
def Nested : Procedure × Reader → Procedure × Reader → Prop :=
  TransGen fun outer inner => Calls outer.1 outer.2 inner.1 inner.2

theorem measure_lt_of_nested {outer inner : Procedure × Reader} (h : Nested outer inner) :
    inner.1.measure inner.2 < outer.1.measure outer.2 := by
  induction h with
  | single hcall => exact measure_lt_of_calls hcall
  | tail _ hcall ih => exact Nat.lt_trans (measure_lt_of_calls hcall) ih

/-- A call from within of a procedure that is no further down has less before it. -/
theorem remaining_lt_of_nested (h : Nested (p, r) (q, s)) (hrank : p.rank ≤ q.rank) :
    s.remaining < r.remaining := by
  have hlt := measure_lt_of_nested h
  simp only [Procedure.measure] at hlt
  omega

/-- No chain of calls goes on for ever. -/
theorem wellFounded_calls :
    WellFounded fun inner outer : Procedure × Reader => Calls outer.1 outer.2 inner.1 inner.2 :=
  Subrelation.wf (fun h => measure_lt_of_calls h)
    (InvImage.wf (fun call : Procedure × Reader => call.1.measure call.2) wellFounded_lt)

/-- **A round of a list that takes no token.**  The flag is set, and the current token is no
semicolon and starts no statement; then the next round starts in the same place, with the flag
cleared. -/
theorem calls_of_idle (hresume : r.resume = true) (hkind : r.kind ≠ .symbol ';')
    (hstarts : ¬ Grammar.StartsStatement r.kind) :
    Calls .statementList r .statementList { r with resume := false } := by
  have hfirst : without .statementList { r with resume := false } .statement r = .ok none r := by
    rw [without_of_ne (by simp)]
    exact statement_of_not_starts hstarts
  refine ⟨{ r with resume := false }, ?_⟩
  rw [body, bind_of_ok hfirst, get_bind_apply, if_neg hkind, if_pos hresume, modify_bind_apply]
  simp only [Bind.bind, EStateM.bind, without_self]

/-! ## Every text -/

/-- What a text is read as is what its declarations come to. -/
theorem parse_ends (source : String) :
    (∃ e, Cursor.start source = .error e ∧ Program.parse source = .error e) ∨
      ∃ c, Cursor.start source = .ok c ∧
        ((∃ p s, program (Program.startReader c) = .ok p s ∧ Program.parse source = .ok p) ∨
          ∃ e s, program (Program.startReader c) = .error (.failed e) s ∧
            Program.parse source = .error e) := by
  cases hc : Cursor.start source with
  | error e =>
    refine Or.inl ⟨e, rfl, ?_⟩
    unfold Program.parse Program.readSource
    rw [hc]
  | ok c =>
    refine Or.inr ⟨c, rfl, ?_⟩
    rcases exists_of_ends (program_ends (Program.startReader c)) with ⟨p, s, hp, -⟩ | ⟨e, s, he⟩
    · exact Or.inl ⟨p, s, hp, Program.parse_of_start hc hp⟩
    · exact Or.inr ⟨e, s, he, congrArg Prod.fst (Program.readSource_of_failed hc he)⟩

/-- Reading terminates.

Every procedure ends from every state, with a result or an error.  Carried out to their end, the
procedures do what their bodies say, which nothing else does, and their fuel can only cut them off;
a whole program is read with them, and what `parse` says of a text is what that comes to.

A procedure depends on no call but those it makes, and each of these lowers the measure; so there is
no infinite chain of them, and where a procedure comes up again inside itself, as it does with every
round of a loop, twice the tokens to come and the flag have become less.  One round of a list of
statements may take no token at all. -/
structure Terminating : Prop where
  ends : ∀ p r, (∃ a s, carryOut p r = .ok a s ∧ s.remaining + p.least ≤ r.remaining) ∨
    ∃ e s, carryOut p r = .error (.failed e) s
  equations : ∀ p, carryOut p = body carryOut p
  unique : ∀ call : Carrier, (∀ p, call p = body call p) → call = carryOut
  fuel : ∀ n p r, run n p r = carryOut p r ∨
    n ≤ p.measure r ∧ ∃ s, run n p r = .error .outOfFuel s
  depends : ∀ p r q s, Calls p r q s ∨ body (without q s) p r = carryOut p r
  decreases : ∀ p r q s, Calls p r q s → q.measure s < p.measure r
  recursive : ∀ p r q s, Nested (p, r) (q, s) → p.rank ≤ q.rank → s.remaining < r.remaining
  finite : WellFounded fun inner outer : Procedure × Reader =>
    Calls outer.1 outer.2 inner.1 inner.2
  idle : ∀ r : Reader, r.resume = true → r.kind ≠ .symbol ';' → ¬ Grammar.StartsStatement r.kind →
    Calls .statementList r .statementList { r with resume := false }
  whole : program = (do
    let r ← get
    let functions ← carryOut .declarations
    let s ← get
    if s.kind = .finish then pure (.ofDeclarations r.line functions)
    else fail s.line .trailingInput)
  parsed : ∀ source,
    (∃ e, Cursor.start source = .error e ∧ Program.parse source = .error e) ∨
      ∃ c, Cursor.start source = .ok c ∧
        ((∃ p s, program (Program.startReader c) = .ok p s ∧ Program.parse source = .ok p) ∨
          ∃ e s, program (Program.startReader c) = .error (.failed e) s ∧
            Program.parse source = .error e)

/-- **Reading terminates on every text.** -/
theorem reading_terminates : Terminating where
  ends p r := exists_of_ends (ends_carryOut p r)
  equations := carryOut_eq_body
  unique _ := eq_carryOut
  fuel := run_eq_or
  depends := calls_or
  decreases _ _ _ _ := measure_lt_of_calls
  recursive _ _ _ _ := remaining_lt_of_nested
  finite := wellFounded_calls
  idle _ := calls_of_idle
  whole := program_eq
  parsed := parse_ends

end Reading
end Scriptlet
