import Scriptlet.Proofs.Session.Fuel
import Scriptlet.Proofs.Session.Safety

/-!
A program and its normal form do the same.

The normal form has no blocks within lists and no statements that are never reached.  Its runs are
the runs of the program itself, in every session, with the same log and the same records; only the
fuel they need is different.  A list of the normal form is evaluated one level below its function,
loop or choice, while in the program its statements may be any number of blocks further down.

* Cutting a list off behind a statement that returns changes nothing at all, because that statement
  ends in no other way (`sequence_untilReturning`).
* Replacing blocks saves levels (`simulates_flattened`).  So with the same fuel the normal form
  comes at least as far.  The other way round the program needs as many more levels for each level
  as blocks can be nested, and the size of its tree is a bound for that.  `Pace` is what both
  directions have in common.

The two trees do not have the same lists, and this is where the comparison leaves the general one
(`Parallel`): the relation of lists is its own parameter there, and `simulates_flattened` is what is
given for it.  A block in the middle of a list costs a level of evaluation, and a block in a block
two, so the fuels of the two runs drift apart.  They are only compared at the beginning of each list,
where `Pace` says how much more the program needs there.  Only the run with too little fuel is
excused, so each direction is a statement about the runs that come to an end.

Main statement: `ends_normal`, for every program that is read; it says of the normal form also that it
is normal, which is shown where it is defined (`isNormalList_of_descend`).
-/

namespace Scriptlet

namespace Evaluation

open Node

variable {α : Type}

/-! ## Lists

Cutting a list off, which is an equation. -/

theorem sequence_cons {eval : Evaluator} {t : Node} {ts : List Node} :
    sequence eval (t :: ts) = (do
      match ← eval t with
      | .returned v => pure (.returned v)
      | _ => sequence eval ts) := rfl

theorem sequence_append {eval : Evaluator} {nodes others : List Node} :
    sequence eval (nodes ++ others) = (do
      match ← sequence eval nodes with
      | .returned v => pure (.returned v)
      | _ => sequence eval others) := by
  induction nodes with
  | nil => rfl
  | cons t ts ih =>
    rw [List.cons_append, sequence_cons, sequence_cons, ih, bind_assoc]
    congr
    funext c
    cases c <;> rfl

/-- **Nothing is reached behind a statement that returns.** -/
theorem sequence_untilReturning {p : Program} {n : Nat} (nodes : List Node) :
    sequence (evaluate p n) (untilReturning nodes) = sequence (evaluate p n) nodes := by
  induction nodes with
  | nil => rfl
  | cons t ts ih =>
    rw [untilReturning]
    split
    · next ht =>
      funext s
      apply bind_congr_of_leads (returns_evaluate ht s)
      rintro _ u ⟨v, rfl⟩
      rfl
    · rw [sequence_cons, sequence_cons, ih]

/-! ## Blocks in lists

Replacing blocks, which changes the levels and so the fuel. -/

section Flattened

variable {k : Terms Halt Halt Session Session} {p q : Program} {n : Nat}

/-- A list beside the list in which its blocks have been replaced by their statements.  The blocks
are at most `h` levels deep; on these levels the statements go the same way. -/
theorem simulates_flattened {M h : Nat} {nodes : List Node}
    (hnodes : ∀ node ∈ nodes, IsStatement node) (hsize : ∀ node ∈ nodes, sizeOf node ≤ h)
    (hroom : h ≤ M ∨ k.excused .outOfFuel)
    (hstatement : ∀ M', M ≤ M' + h → M' ≤ M → ∀ t, IsStatement t → sizeOf t ≤ h →
      SameEffect k (fun _ => True) Eq Eq (evaluate p M' t) (evaluate q n t.normal)) :
    SameEffect k (fun _ => True) Eq Eq (sequence (evaluate p M) nodes)
      (sequence (evaluate q n) ((nodes.map normal).flatMap spliced)) := by
  cases hlist : nodes with
  | nil => exact sameEffect_normal
  | cons t ts =>
    subst hlist
    obtain ⟨ht, hts⟩ := List.forall_mem_cons.1 hnodes
    obtain ⟨htsize, htssize⟩ := List.forall_mem_cons.1 hsize
    have hrest := simulates_flattened hts htssize hroom hstatement
    rw [List.map_cons, List.flatMap_cons, sequence_cons]
    by_cases hlabel : t.label = .block
    · have hblock : IsBlock t := by
        cases ht with
        | block hblock => exact hblock
        | _ => cases hlabel
      cases hblock with
      | @statements line list inner hinner =>
        have hlist : sizeOf (⟨.statements, inner, list⟩ : Node) < h :=
          Nat.lt_of_lt_of_le (sizeOf_lt_of_mem List.mem_cons_self) htsize
        have htwo : 2 ≤ h := by
          rw [mk.sizeOf_spec] at hlist
          omega
        have hinnersize : ∀ node ∈ inner, sizeOf node ≤ h - 2 := by
          intro node hnode
          have hlt := sizeOf_lt_of_mem (t := ⟨.statements, inner, list⟩) hnode
          omega
        rw [spliced_normal_block, normalList, sequence_append, sequence_untilReturning]
        refine simulates_followed ?_ hrest
        -- the list of the block is two levels further down
        match M, hroom, hstatement with
        | 0, hroom, _ => exact .excuse (hroom.resolve_left (by omega))
        | 1, hroom, _ => exact .excuse (hroom.resolve_left (by omega))
        | M + 2, hroom, hstatement =>
          have hroom' : h - 2 ≤ M ∨ k.excused .outOfFuel := hroom.imp_left (by omega)
          refine simulates_flattened hinner hinnersize hroom' fun M' hle hge u hu husize => ?_
          exact hstatement M' (by omega) (by omega) u hu (by omega)
    · rw [spliced_of_ne (by rw [label_normal]; exact hlabel), List.singleton_append, sequence_cons]
      exact simulates_followed (hstatement M (by omega) (by omega) t ht htsize) hrest
termination_by sizeOf nodes

/-- How the fuel `M` of a program and the fuel `n` of its normal form go together, where no tree is
larger than `h`: on one level less of the normal form they still do, also on up to `h` levels of the
program further down, and there are that many levels unless the program may run out of fuel. -/
structure Pace (k : Terms Halt Halt Session Session) (h : Nat) (F : Nat → Nat → Prop) : Prop where
  fuelled : ∀ {M n}, F M n → Fuelled k M n
  below : ∀ {M n M'}, F (M + 1) (n + 1) → M ≤ M' + h → M' ≤ M → F M' n
  room : ∀ {M n}, F (M + 1) (n + 1) → h ≤ M ∨ k.excused .outOfFuel

/-- A node that is not larger than `h`, and its normal form. -/
def Normalises (h : Nat) (t u : Node) : Prop := sizeOf t ≤ h ∧ u = t.normal

theorem Normalises.resembles {h : Nat} {t u : Node} (htu : Normalises h t u)
    (hlabel : t.label ≠ .statements) : Resembles Eq (fun _ => True) (Normalises h) t u := by
  obtain ⟨hsize, rfl⟩ := htu
  refine ⟨(label_normal t).symm, fun _ _ => trivial, (line_normal t).symm, ?_⟩
  rw [normal_of_ne hlabel]
  refine List.forall₂_map_right_iff.2 (List.forall₂_same.2 fun child hchild => ⟨?_, rfl⟩)
  exact Nat.le_trans (Nat.le_of_lt (sizeOf_lt_of_mem hchild)) hsize

theorem sameFunctions_normal {h : Nat} (hp : p.WellFormed) (hroot : sizeOf p.root ≤ h) :
    SameFunctions (Normalises h) p p.normal := by
  intro name
  rw [Program.function?_normal hp]
  cases hf : p.function? name with
  | none => exact .none
  | some function =>
    have hlt := sizeOf_lt_of_mem (mem_of_function? hf)
    exact .some ⟨Nat.le_trans (Nat.le_of_lt hlt) hroot, rfl⟩

/-- A program and its normal form go the same way, if their fuels go together. -/
theorem below_normal {h : Nat} {F : Nat → Nat → Prop} (hk : Parallel k Eq (fun _ => True) fun _ => Eq)
    (hpace : Pace k h F) (hp : p.WellFormed) (hroot : sizeOf p.root ≤ h) {M : Nat} (hF : F M n) :
    Below k Eq (fun _ => True) (fun _ => Eq) (Normalises h) (evaluate p M) (evaluate p.normal n) := by
  induction n generalizing M with
  | zero =>
    -- a program that runs out of fuel is excused, whichever of the two it is
    cases M with
    | zero =>
      exact ⟨Normalises.resembles, fun d _ _ => hk.outOfFuel (d := d),
        fun d _ _ => hk.outOfFuel (d := d)⟩
    | succ M =>
      have hexcused := (hpace.fuelled hF).excused'
      exact ⟨Normalises.resembles, fun _ _ _ => .excuse' hexcused, fun _ _ _ => .excuse' hexcused⟩
  | succ n ih =>
    cases M with
    | zero =>
      have hexcused := (hpace.fuelled hF).excused
      exact ⟨Normalises.resembles, fun _ _ _ => .excuse hexcused, fun _ _ _ => .excuse hexcused⟩
    | succ M =>
      have hb := ih (hpace.below hF (Nat.le_add_right M h) (Nat.le_refl M))
      have hpq := sameFunctions_normal hp hroot
      refine ⟨Normalises.resembles, fun d ht htu => ?_, fun d ht htu => ?_⟩
      · refine hb.expression_step (d := d) hk ?_ ht htu
        exact fun name arguments line line' hline hv => hb.invoke (d := d + 1) hk hp hpq hline hv
      · cases ht with
        | statement ht => exact hb.statement_step (d := d) hk (hpace.fuelled hF).below ht htu
        | @statements line nodes hnodes =>
          -- the list is flattened, and a statement of a nested list runs with less fuel: hence `ih`
          -- for every level in between
          obtain ⟨hsize, rfl⟩ := htu
          rw [normal_statements]
          show SameEffect k (fun _ => True) Eq Eq (sequence (evaluate p M) nodes)
            (sequence (evaluate p.normal n) (normalList (nodes.map normal)))
          rw [normalList, sequence_untilReturning]
          have hinner : ∀ node ∈ nodes, sizeOf node ≤ h := by
            intro node hnode
            have hlt := sizeOf_lt_of_mem (t := ⟨.statements, nodes, line⟩) hnode
            omega
          refine simulates_flattened hnodes hinner (hpace.room hF) fun M' hle hge t ht htsize => ?_
          exact (ih (hpace.below hF hle hge)).statement d (.statement ht) ⟨htsize, rfl⟩

end Flattened

/-! ## Runs -/

variable {p : Program}

/-- With the same fuel the normal form comes at least as far. -/
theorem upToFuel_normal (hp : p.WellFormed) (fuel : Nat) :
    UpToFuel (run p fuel) (run p.normal fuel) := by
  have hpace : Pace firstMayRunOut (sizeOf p.root) fun M n => M ≤ n :=
    ⟨fun hle => Or.inr (Or.inl ⟨hle, rfl⟩), fun hle _ hge => by omega, fun _ => Or.inr rfl⟩
  have hb := below_normal parallel_firstMayRunOut hpace hp (Nat.le_refl _) (Nat.le_refl fuel)
  exact kept_firstMayRunOut_iff.1
    (hb.run parallel_firstMayRunOut hp (sameFunctions_normal hp (Nat.le_refl _))).kept

/-- With as many more levels for each as its tree is large, the program comes as far as the normal
form. -/
theorem upToFuel_of_normal (hp : p.WellFormed) (fuel : Nat) :
    UpToFuel (run p.normal fuel) (run p ((sizeOf p.root + 1) * fuel)) := by
  have hpace : Pace secondMayRunOut (sizeOf p.root) fun M n => (sizeOf p.root + 1) * n ≤ M := by
    have hmul : ∀ n, (sizeOf p.root + 1) * (n + 1) = (sizeOf p.root + 1) * n + sizeOf p.root + 1 :=
      fun n => rfl
    refine ⟨fun {M n} hle => Or.inr (Or.inr ⟨?_, rfl⟩), fun {M n M'} hle hfar _ => ?_,
      fun {M n} hle => ?_⟩
    · exact Nat.le_trans (Nat.le_mul_of_pos_left n (Nat.succ_pos _)) hle
    · rw [hmul] at hle
      omega
    · rw [hmul] at hle
      exact Or.inl (by omega)
  have hb := below_normal parallel_secondMayRunOut hpace hp (Nat.le_refl _)
    (Nat.le_refl ((sizeOf p.root + 1) * fuel))
  exact kept_secondMayRunOut_iff.1
    (hb.run parallel_secondMayRunOut hp (sameFunctions_normal hp (Nat.le_refl _))).kept

end Evaluation

namespace Program

open Evaluation

/-- **Normalising a program keeps its meaning.**  Take a program that is read.

* Its normal form is normal: in none of its lists there is a block, and none but the last statement of
  a list returns.
* Whatever the program comes to in a session its normal form comes to, and the other way round, with
  either discipline and with any input and output: the same value or the same fault, and the same
  session after it, with its records and what is held of them, its input, its output and its log.  So
  one terminates exactly if the other does. -/
theorem ends_normal {source : String} {p : Program} (h : parse source = .ok p) :
    (∀ path node, p.normal.root.descend? path = some node → node.label = .statements →
        Node.IsNormalList node.children) ∧
      ∀ s : Session,
        (∀ outcome t, p.normal.Ends s outcome t ↔ p.Ends s outcome t) ∧
          (p.normal.Terminates s ↔ p.Terminates s) := by
  have hp := wellFormed_of_parse h
  refine ⟨fun path node hnode hlabel => isNormalList_of_descend hp hnode hlabel, fun s => ?_⟩
  have hends : ∀ outcome t, p.normal.Ends s outcome t ↔ p.Ends s outcome t := by
    intro outcome t
    constructor
    · rintro ⟨fuel, hrun, houtcome⟩
      -- flattening saves fuel, so the program itself needs more of it, by the size of the tree
      refine ⟨(sizeOf p.root + 1) * fuel, ?_, houtcome⟩
      rw [← hrun]
      exact runIn_of_upToFuel (upToFuel_of_normal hp fuel) (by rw [hrun]; exact houtcome)
    · rintro ⟨fuel, hrun, houtcome⟩
      refine ⟨fuel, ?_, houtcome⟩
      rw [← hrun]
      exact runIn_of_upToFuel (upToFuel_normal hp fuel) (by rw [hrun]; exact houtcome)
  refine ⟨hends, ?_⟩
  constructor
  · rintro ⟨outcome, t, ht⟩
    exact ⟨outcome, t, (hends outcome t).1 ht⟩
  · rintro ⟨outcome, t, ht⟩
    exact ⟨outcome, t, (hends outcome t).2 ht⟩

/-- It holds of a program with a block in a loop that returns, and with a statement behind that: the
list of the loop is `write(1); return 2` in the normal form. -/
theorem ends_normal_unwinding :
    ∃ p, parse "fun main() { while (1) { { write(1); { return 2 } } write(3) } }" = .ok p ∧
      (∃ list, p.normal.root.descend? [0, 0, 0, 0, 1, 0] = some list ∧
        list.children.map Node.label = [.write, .returnValue] ∧
        Node.IsNormalList list.children) ∧
      ∀ s : Session,
        (∀ outcome t, p.normal.Ends s outcome t ↔ p.Ends s outcome t) ∧
          (p.normal.Terminates s ↔ p.Terminates s) := by
  have hlist :
      (parse "fun main() { while (1) { { write(1); { return 2 } } write(3) } }").toOption.any
        fun p => (p.normal.root.descend? [0, 0, 0, 0, 1, 0]).any fun list =>
          list.label = .statements ∧ list.children.map Node.label = [.write, .returnValue] := by
    decide +kernel
  obtain ⟨p, hp, hcheck⟩ := exists_of_any hlist
  obtain ⟨list, hfound, hshown⟩ := Option.any_eq_true _ _ |>.1 hcheck
  obtain ⟨hlabel, hlabels⟩ := of_decide_eq_true hshown
  obtain ⟨hnormal, hends⟩ := ends_normal hp
  exact ⟨p, hp, ⟨list, hfound, hlabels, hnormal _ list hfound hlabel⟩, hends⟩

end Program
end Scriptlet
