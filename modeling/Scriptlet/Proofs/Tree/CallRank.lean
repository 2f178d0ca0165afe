import Mathlib.Data.Finset.Card
import Scriptlet.Proofs.Tree.Names

/-!
How deep a run can go.

Below a node there are at most as many levels as it is high (`Node.height`), until a call leads to the
body of another function.  Where no function that a run can come to calls itself, not even through
others, calls do not go on for ever either: a function has a rank, the number of functions that can be
come to from it, and each call leads to a smaller one (`callRank_lt_of_calls`).

What a callee can come to, its caller can come to as well.  The caller can also come to the callee
itself, and the callee cannot if it is in no cycle.  So the one set of functions is a proper part of
the other, and the rank, which is the size of the set, goes down.

For a given program one need not know the ranks.  Any assignment of numbers to names that goes down
with each call will do as a witness that there is no recursion (`unrecursive_of_rank`), and this can
be checked by evaluation.
-/

namespace Scriptlet

namespace Node

mutual

/-- How many nodes there are on the longest way down. -/
def height : Node → Nat
  | ⟨_, children, _⟩ => heightOfAll children + 1

/-- The height of the highest of several trees. -/
def heightOfAll : List Node → Nat
  | [] => 0
  | t :: ts => max t.height (heightOfAll ts)

end

theorem height_eq (t : Node) : t.height = heightOfAll t.children + 1 := by
  cases t
  rw [height]

theorem height_pos (t : Node) : 0 < t.height := by
  rw [height_eq]
  exact Nat.succ_pos _

mutual

/-- No node of a tree is higher than the root. -/
theorem height_le_of_mem {u : Node} : (t : Node) → u ∈ t.nodes → u.height ≤ t.height
  | ⟨label, children, line⟩, h => by
    rw [nodes] at h
    rcases List.mem_cons.1 h with rfl | hbelow
    · exact Nat.le_refl _
    · rw [height]
      exact Nat.le_succ_of_le (height_le_of_mem_all children hbelow)

theorem height_le_of_mem_all {u : Node} : (ts : List Node) → u ∈ nodesOfAll ts →
    u.height ≤ heightOfAll ts
  | [], h => by cases h
  | t :: ts, h => by
    rw [nodesOfAll] at h
    rw [heightOfAll]
    rcases List.mem_append.1 h with hfirst | hrest
    · exact Nat.le_trans (height_le_of_mem t hfirst) (Nat.le_max_left _ _)
    · exact Nat.le_trans (height_le_of_mem_all ts hrest) (Nat.le_max_right _ _)

end

/-- The nodes below the root are less high. -/
theorem height_lt_of_below {t u : Node} (h : u ∈ nodesOfAll t.children) : u.height < t.height := by
  rw [height_eq t]
  exact Nat.lt_succ_of_le (height_le_of_mem_all _ h)

theorem height_lt_of_child {t child : Node} (h : child ∈ t.children) : child.height < t.height :=
  height_lt_of_below (mem_nodesOfAll h child.mem_nodes_self)

end Node

namespace Program

open Node Relation

variable {p : Program} {f g : String} {t : Node}

/-- What is below a node of a declaration is in the declaration. -/
theorem Within.below (h : p.Within f t) {u : Node} (hu : u ∈ nodesOfAll t.children) :
    p.Within f u := by
  obtain ⟨child, hchild, hmem⟩ := exists_of_mem_nodesOfAll hu
  obtain ⟨declaration, hf, hdeclaration⟩ := h.child hchild
  exact ⟨declaration, hf, nodes_subset declaration hdeclaration hmem⟩

/-- A node of a declaration is a node of the program. -/
theorem Within.mem_root (h : p.Within f t) : t ∈ p.root.nodes := by
  obtain ⟨declaration, hf, ht⟩ := h
  obtain ⟨position, -, hposition⟩ := Option.bind_eq_some_iff.1 hf
  have hmem := mem_nodes_of_child (List.mem_of_getElem? hposition)
  exact nodes_subset p.root hmem ht

/-- A run can come to the function: it starts there, or a function that it can come to calls it. -/
def Reaches (p : Program) (f : String) : Prop := ReflTransGen p.Calls entryPoint f

/-- No function that a run can come to calls itself, directly or through others. -/
def Unrecursive (p : Program) : Prop := ∀ f, p.Reaches f → ¬ TransGen p.Calls f f

/-! ## Ranks -/

open Classical in
/-- How many functions can be come to from the function. -/
noncomputable def callRank (p : Program) (f : String) : Nat :=
  (p.functions.names.toFinset.filter fun g => TransGen p.Calls f g).card

/-- **Each call leads to a smaller rank**, where the function that is called does not call itself. -/
theorem callRank_lt_of_calls (hcall : p.Calls f g) (hg : g ∈ p.functions.names)
    (hcycle : ¬ TransGen p.Calls g g) : p.callRank g < p.callRank f := by
  classical
  refine Finset.card_lt_card (Finset.ssubset_iff_subset_ne.2 ⟨fun h hh => ?_, fun heq => ?_⟩)
  · obtain ⟨hmem, hchain⟩ := Finset.mem_filter.1 hh
    exact Finset.mem_filter.2 ⟨hmem, hchain.head hcall⟩
  · have hmem : g ∈ p.functions.names.toFinset.filter fun h => TransGen p.Calls f h :=
      Finset.mem_filter.2 ⟨List.mem_toFinset.2 hg, .single hcall⟩
    rw [← heq] at hmem
    exact hcycle (Finset.mem_filter.1 hmem).2

/-- The rank of a function that does not call itself is less than the number of functions. -/
theorem callRank_lt_size (hf : f ∈ p.functions.names) (hcycle : ¬ TransGen p.Calls f f) :
    p.callRank f < p.functions.size := by
  classical
  have hnodup : p.functions.names.Nodup := p.functions.nodup
  rw [Table.size_eq, ← List.toFinset_card_of_nodup hnodup]
  refine Finset.card_lt_card (Finset.ssubset_iff_subset_ne.2 ⟨Finset.filter_subset _ _, fun heq => ?_⟩)
  rw [← List.mem_toFinset, ← heq] at hf
  exact hcycle (Finset.mem_filter.1 hf).2

/-! ## Checking -/

/-- **A check**: names that contain the entry point and all that their functions call, with a rank
that goes down with every call. -/
theorem unrecursive_of_rank (reached : List String) (rank : String → Nat)
    (hentry : entryPoint ∈ reached)
    (hrank : ∀ f ∈ reached, ∀ g ∈ p.calledNames f, g ∈ reached ∧ rank g < rank f) :
    p.Unrecursive := by
  have hreached : ∀ f, p.Reaches f → f ∈ reached := by
    intro f h
    induction h with
    | refl => exact hentry
    | tail _ hcall ih => exact (hrank _ ih _ hcall).1
  have hchain : ∀ f ∈ reached, ∀ g, TransGen p.Calls f g → g ∈ reached ∧ rank g < rank f := by
    intro f hf g h
    induction h with
    | single hcall => exact hrank f hf _ hcall
    | tail _ hcall ih =>
      obtain ⟨hmem, hlt⟩ := hrank _ ih.1 _ hcall
      exact ⟨hmem, Nat.lt_trans hlt ih.2⟩
  intro f h hcycle
  exact Nat.lt_irrefl _ (hchain f (hreached f h) f hcycle).2

end Program
end Scriptlet
