import Mathlib.Data.List.Induction
import Scriptlet.Proofs.Tree.Shape

/-!
The function table and the tree.

The table of a program is made from the list of its declarations, one after the other, and holds only
positions.  Seen from the end of the list it is simple: the last declaration has its name, and under
any other name there is what the declarations before it put there (`function?_concat`).  So a name
refers to the last child of the root that declares it, and to nothing if there is none.

The induction has to be from the end of the list for that reason.  The table is what the evaluator
has, and the children of the root are what the tree shows; all statements about which function a call
runs go through here.
-/

namespace Scriptlet
namespace Program

variable {names : List String} {name : String} {position : Nat} {table : Table Nat}

/-- The last name is entered last. -/
theorem tableFrom_concat :
    tableFrom position table (names ++ [name]) =
      (tableFrom position table names).insert name (position + names.length) := by
  induction names generalizing position table with
  | nil => rfl
  | cons first more ih =>
    show tableFrom (position + 1) (table.insert first position) (more ++ [name]) = _
    rw [ih, List.length_cons, Nat.add_assoc, Nat.add_comm 1]
    rfl

/-- Every position of the table is one of the list. -/
theorem lt_length_of_find?_tableFrom (h : (tableFrom 0 .empty names).find? name = some position) :
    position < names.length := by
  induction names using List.reverseRecOn with
  | nil => cases h
  | append_singleton names last ih =>
    rw [tableFrom_concat, Table.find?_insert] at h
    rw [List.length_append, List.length_singleton]
    split at h
    · cases h
      omega
    · have hlt := ih h
      omega

/-- **A later declaration replaces an earlier one** of the same name, and no other. -/
theorem function?_concat {line : Nat} {declarations : List (String × Node)}
    {last : String × Node} :
    (ofDeclarations line (declarations ++ [last])).function? name =
      if name = last.1 then some last.2 else (ofDeclarations line declarations).function? name := by
  unfold function? ofDeclarations
  simp only [List.map_append, List.map_cons, List.map_nil]
  rw [tableFrom_concat, Table.find?_insert, List.length_map]
  split
  · -- the last declaration
    rw [Option.bind_some, Nat.zero_add, List.getElem?_append_right (by simp)]
    simp
  · cases hfind : (tableFrom 0 .empty (declarations.map Prod.fst)).find? name with
    | none => rfl
    | some position =>
      have hlt := lt_length_of_find?_tableFrom hfind
      rw [List.length_map] at hlt
      rw [Option.bind_some, Option.bind_some, List.getElem?_append_left (by simpa using hlt)]

/-- What a name refers to, if every declaration is labelled with its name. -/
theorem function?_ofDeclarations {line : Nat} {declarations : List (String × Node)}
    (h : ∀ f ∈ declarations, f.2.label = .function f.1) :
    (ofDeclarations line declarations).function? name =
      (declarations.map Prod.snd).reverse.find? fun f => f.label = .function name := by
  induction declarations using List.reverseRecOn with
  | nil => rfl
  | append_singleton declarations last ih =>
    obtain ⟨hbefore, hlast⟩ := List.forall_mem_append.1 h
    have hlabel : last.2.label = .function last.1 := hlast last List.mem_cons_self
    rw [function?_concat, ih hbefore, List.map_append, List.reverse_append]
    show _ = (last.2 :: (declarations.map Prod.snd).reverse).find? _
    rw [List.find?_cons, hlabel]
    by_cases hname : name = last.1
    · simp [hname]
    · have hne : ¬ last.1 = name := fun heq => hname heq.symm
      simp [hname, hne]

end Program

namespace Grammar

theorem label_of_declarations {b b' : Bool} {ts rest : List Token}
    {functions : List (String × Node)} (h : Declarations b ts functions b' rest) :
    ∀ f ∈ functions, f.2.label = .function f.1 := by
  induction h with
  | none => simp
  | cons head tail ih =>
    refine List.forall_mem_cons.2 ⟨?_, ih⟩
    cases head
    rfl

end Grammar

namespace Program

variable {source : String} {p : Program} {name : String}

/-- **A name refers to the last declaration of that name.** -/
theorem function?_eq_find? (h : parse source = .ok p) :
    p.function? name = p.root.children.reverse.find? fun f => f.label = .function name := by
  obtain ⟨ts, -, hderives⟩ := derives_of_parse h
  generalize ts ++ [endMarker source] = all at hderives
  cases hderives with
  | program hdeclarations hlast =>
    exact function?_ofDeclarations (Grammar.label_of_declarations hdeclarations)

/-- A name refers to nothing if no function is declared with it. -/
theorem function?_eq_none_iff (h : parse source = .ok p) :
    p.function? name = none ↔ ∀ f ∈ p.root.children, f.label ≠ .function name := by
  rw [function?_eq_find? h, List.find?_eq_none]
  simp

end Program
end Scriptlet
