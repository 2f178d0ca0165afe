import Scriptlet.Proofs.Session.Judgement
import Scriptlet.Proofs.Session.Requests

/-!
Programs that are read never halt on a malformed node.

The evaluator asks its nodes for names and operands, and halts with a `Malformation` where there are
none; a call whose body ends without returning goes on with the none value.  No program that is read
does either.  A node that has to be an expression is one, so it has a value; and the last statement
of every body is a `return`, so a body that ends has returned.

`Dialogue.Safe` says of a dialogue that it does not halt on a malformed node, whatever it is answered.
So it says this of all sessions at once: with either discipline, whatever is in the memory, the input
and the output, and so also in a session that earlier runs have left behind.  No request is refused
that way, and on a well-formed tree the evaluator finds what it looks for; that it goes on safely
through calls, loops and lists is what `Judgement` is for (`safety`).

The second way to go wrong is not a halt.  A call whose body does not return would yield the none
value and leave its record on the stack, and nobody would notice.  That no body does this is a
property of the evaluator and of the trees that are read (`Evaluation.Returns`): it is proved with the
equations of a level, and every judgement may use it where it comes to a call.

Main statement: `safe_of_parse`, for every program that is read.
-/

namespace Scriptlet

namespace Dialogue

variable {α β : Type} {d : Dialogue α} {f : α → Dialogue β} {q : Request}

/-- No way through the dialogue ends on a malformed node. -/
def Safe : Dialogue α → Prop
  | done _ => True
  | halt e => ∀ m, e ≠ .malformed m
  | ask _ next => ∀ reply, (next reply).Safe

theorem Safe.bind (hd : d.Safe) (hf : ∀ a, (f a).Safe) : (d >>= f).Safe := by
  induction d with
  | done a => exact hf a
  | halt e => exact hd
  | ask q next ih => exact fun reply => ih reply (hd reply)

/-- A request by itself is safe, whatever it is. -/
theorem safe_request : (request q).Safe := fun _ => trivial

theorem safe_lookUp {name : String} {line : Nat} : (lookUp name line).Safe := by
  unfold lookUp
  split
  · exact trivial
  · refine Safe.bind safe_request fun found => ?_
    split
    · exact trivial
    · exact fun _ => nofun

/-- A safe dialogue halts on no malformed node, in whatever session it is held. -/
theorem Safe.ne_malformed (h : d.Safe) {s : Session} {e : Halt}
    (hend : (d.outcome s).1 = .error e) (m : Malformation) : e ≠ .malformed m := by
  induction d generalizing s with
  | done a => cases hend
  | halt e' =>
    cases hend
    exact h m
  | ask q next ih =>
    cases hanswer : q.answer s with
    | ok reply t =>
      rw [outcome_of_answer hanswer] at hend
      exact ih reply (h reply) hend
    | error e' t =>
      rw [outcome_of_refusal hanswer] at hend
      cases hend
      obtain ⟨line, cause, -, rfl, -⟩ := Request.fault_of_refusal hanswer
      exact nofun

/-- **Safety is a judgement.**  It does not depend on which functions are active, nor on the names in
the program. -/
def safety (p : Program) : Judgement p where
  within _ _ := True
  asks _ _ _ d := d.Safe
  does _ _ d := d.Safe
  ends _ d := d.Safe
  child _ _ := trivial
  declared _ _ := trivial
  asks_done := trivial
  asks_halt h := h
  asks_bind hd hg := hd.bind hg
  asks_visit := safe_request
  asks_lookUp := safe_lookUp
  asks_flush := safe_request
  does_of_asks h := h
  does_bind hd hg := hd.bind hg
  does_assign _ _ := safe_request
  does_parameter _ _ _ := safe_request
  does_write := safe_request
  does_read := safe_request
  ends_done := trivial
  ends_bind hd hg := hd.bind hg
  ends_followed hd hd' := by
    refine hd.bind fun c => ?_
    split
    · exact trivial
    · exact hd'
  ends_returning := safe_request.bind fun _ => safe_request.bind fun _ => trivial
  asks_frame _ hgiven hbody _ := by
    refine safe_request.bind fun _ => safe_request.bind fun _ => safe_request.bind fun _ => ?_
    refine hgiven.bind fun _ => hbody.bind fun c => ?_
    split
    · exact safe_request.bind fun _ => trivial
    · exact safe_request.bind fun _ => safe_request.bind fun _ => trivial

end Dialogue

namespace Program

open Evaluation

/-- No run of a well-formed program halts on a malformed node. -/
theorem WellFormed.runIn_ne_malformed {p : Program} (hp : p.WellFormed) (fuel : Nat) (s : Session)
    (m : Malformation) : (p.runIn fuel s).1 ≠ .error (.malformed m) := by
  intro hrun
  have hsafe : (Dialogue.run p fuel).Safe := (Dialogue.safety p).asks_run hp fuel
  rw [← outcome_run] at hrun
  exact hsafe.ne_malformed hrun m rfl

/-- **Programs that are read are well-formed and run safely.**  Whatever the session, and so however
often and with whatever outcome programs have run in it before, no run halts on a malformed node,
and no body of a function ends but by returning. -/
theorem safe_of_parse {source : String} {p : Program} (h : parse source = .ok p) :
    p.WellFormed ∧
      (∀ fuel s m, (p.runIn fuel s).1 ≠ .error (.malformed m)) ∧
      ∀ f ∈ p.root.children, ∀ body, f.children.getLast? = some body →
        ∀ fuel s c t, evaluate p fuel body s = .ok c t → ∃ v, c = .returned v := by
  have hp := wellFormed_of_parse h
  refine ⟨hp, hp.runIn_ne_malformed, ?_⟩
  intro f hf body hbody fuel s c t hc
  exact (returns_evaluate ((hp.functions f hf).returns_body hbody) s).of_ok hc

/-- It holds of a program that hands its input on, and that calls itself. -/
theorem safe_of_parse_echo :
    ∃ p, parse "fun main() { read(x); write(x); if (main() ? 0) { return x } }" = .ok p ∧
      p.WellFormed ∧
      (∀ fuel s m, (p.runIn fuel s).1 ≠ .error (.malformed m)) ∧
      ∀ f ∈ p.root.children, ∀ body, f.children.getLast? = some body →
        ∀ fuel s c t, evaluate p fuel body s = .ok c t → ∃ v, c = .returned v := by
  have hok : (parse "fun main() { read(x); write(x); if (main() ? 0) { return x } }").isOk := by
    decide +kernel
  obtain ⟨p, hp⟩ := exists_of_isOk hok
  exact ⟨p, hp, safe_of_parse hp⟩

end Program
end Scriptlet
