import Mathlib.Logic.Relation
import Scriptlet.Proofs.Tree.Shape

/-!
The names in a declaration: those it binds and those it calls.

A function binds its parameters and the targets of the assignments and the `read`s in its body.  It
calls the functions that are named in it, whether a run comes to the call or not.  Both can be listed
(`boundNames`, `calledNames`), through the list of all nodes of a tree.

The names are read off the tree, not off a run.  Whether a variable is assigned in a run cannot be
told from the tree, but which variables might be can: an assignment names its target, and so does a
`read`.  The list of all nodes makes both a matter of membership, and `Within` is the same for a node
that is met on the way down from a declaration, which is how a proof about evaluation meets it.

Main definition: in a program with separate functions (`Program.Separate`) no two of them bind the
same name, and none calls itself, not even through others.  It can be checked by a rank that goes down
with every call (`separate_of_rank`).
-/

namespace Scriptlet

namespace Node

mutual

/-- The nodes of a tree, the root first. -/
def nodes : Node → List Node
  | ⟨label, children, line⟩ => ⟨label, children, line⟩ :: nodesOfAll children

/-- The nodes of several trees. -/
def nodesOfAll : List Node → List Node
  | [] => []
  | t :: ts => t.nodes ++ nodesOfAll ts

end

/-- The name in a leaf. -/
def name? (t : Node) : Option String :=
  match t.label with
  | .identifier name => some name
  | _ => none

/-- The variable that an assignment or a `read` gives a value. -/
def target? (t : Node) : Option String :=
  match t.label with
  | .assign | .read => t.first?.bind name?
  | _ => none

/-- The function that a node calls. -/
def callee? (t : Node) : Option String :=
  match t.label with
  | .call name => some name
  | _ => none

/-- The names that a declaration binds: the parameters, and the targets in the body. -/
def boundNames (declaration : Node) : List String :=
  declaration.children.dropLast.filterMap name? ++ declaration.nodes.filterMap target?

/-- The names of the functions that are called in a declaration. -/
def calledNames (declaration : Node) : List String := declaration.nodes.filterMap callee?

theorem nodes_eq (t : Node) : t.nodes = t :: nodesOfAll t.children := by
  cases t
  rw [nodes]

theorem mem_nodes_self (t : Node) : t ∈ t.nodes := by
  rw [nodes_eq]
  exact List.mem_cons_self

theorem mem_nodesOfAll {t child : Node} {ts : List Node} (hchild : child ∈ ts)
    (h : t ∈ child.nodes) : t ∈ nodesOfAll ts := by
  induction ts with
  | nil => cases hchild
  | cons first rest ih =>
    rw [nodesOfAll]
    rcases List.mem_cons.1 hchild with rfl | hrest
    · exact List.mem_append_left _ h
    · exact List.mem_append_right _ (ih hrest)

/-- A node of several trees is one of one of them. -/
theorem exists_of_mem_nodesOfAll {t : Node} {ts : List Node} (h : t ∈ nodesOfAll ts) :
    ∃ child ∈ ts, t ∈ child.nodes := by
  induction ts with
  | nil => cases h
  | cons first rest ih =>
    rw [nodesOfAll] at h
    rcases List.mem_append.1 h with hfirst | hrest
    · exact ⟨first, List.mem_cons_self, hfirst⟩
    · obtain ⟨child, hchild, ht⟩ := ih hrest
      exact ⟨child, List.mem_cons_of_mem _ hchild, ht⟩

theorem mem_nodes_of_child {t child : Node} (hchild : child ∈ t.children) : child ∈ t.nodes := by
  rw [nodes_eq]
  exact List.mem_cons_of_mem _ (mem_nodesOfAll hchild child.mem_nodes_self)

mutual

/-- What is below a node of the tree is in the tree. -/
theorem nodes_subset {t : Node} : (u : Node) → t ∈ u.nodes → t.nodes ⊆ u.nodes
  | ⟨label, children, line⟩, h => by
    rw [nodes] at h ⊢
    rcases List.mem_cons.1 h with rfl | hbelow
    · rw [nodes]
      exact List.Subset.refl _
    · exact List.subset_cons_of_subset _ (nodes_subset_of_all children hbelow)

theorem nodes_subset_of_all {t : Node} : (us : List Node) → t ∈ nodesOfAll us →
    t.nodes ⊆ nodesOfAll us
  | [], h => by cases h
  | u :: us, h => by
    rw [nodesOfAll] at h ⊢
    rcases List.mem_append.1 h with hfirst | hrest
    · exact List.subset_append_of_subset_left _ (nodes_subset u hfirst)
    · exact List.subset_append_of_subset_right _ (nodes_subset_of_all us hrest)

end

end Node

namespace Program

open Node

/-- The names that the function of the given name binds; none if there is no such function. -/
def boundNames (p : Program) (function : String) : List String :=
  ((p.function? function).map Node.boundNames).getD []

/-- The names of the functions that are called in the declaration of the function. -/
def calledNames (p : Program) (function : String) : List String :=
  ((p.function? function).map Node.calledNames).getD []

/-- The function binds the name. -/
def Binds (p : Program) (function name : String) : Prop := name ∈ p.boundNames function

/-- There is a call of `callee` in the declaration of `caller`. -/
def Calls (p : Program) (caller callee : String) : Prop := callee ∈ p.calledNames caller

/-- Distinct functions bind distinct names, and no function calls itself, directly or through
others. -/
structure Separate (p : Program) : Prop where
  disjoint : ∀ f g name, f ≠ g → p.Binds f name → ¬ p.Binds g name
  acyclic : ∀ f, ¬ Relation.TransGen p.Calls f f

/-- The node is in the declaration of the function. -/
def Within (p : Program) (function : String) (t : Node) : Prop :=
  ∃ declaration, p.function? function = some declaration ∧ t ∈ declaration.nodes

variable {p : Program} {f : String} {t : Node}

theorem Within.child (h : p.Within f t) {child : Node} (hchild : child ∈ t.children) :
    p.Within f child := by
  obtain ⟨declaration, hf, ht⟩ := h
  exact ⟨declaration, hf, nodes_subset declaration ht (mem_nodes_of_child hchild)⟩

theorem Within.calls (h : p.Within f t) {callee : String} (hcallee : t.callee? = some callee) :
    p.Calls f callee := by
  obtain ⟨declaration, hf, ht⟩ := h
  rw [Calls, calledNames, hf]
  exact List.mem_filterMap.2 ⟨t, ht, hcallee⟩

theorem Within.binds (h : p.Within f t) {name : String} (hname : t.target? = some name) :
    p.Binds f name := by
  obtain ⟨declaration, hf, ht⟩ := h
  rw [Binds, boundNames, hf]
  exact List.mem_append_right _ (List.mem_filterMap.2 ⟨t, ht, hname⟩)

/-- A function binds its parameters, which are all its children but the last. -/
theorem binds_parameter {declaration parameter : Node} (hf : p.function? f = some declaration)
    (hparameter : parameter ∈ declaration.children.dropLast) {name : String}
    (hname : parameter.name? = some name) : p.Binds f name := by
  rw [Binds, boundNames, hf]
  exact List.mem_append_left _ (List.mem_filterMap.2 ⟨parameter, hparameter, hname⟩)

/-- What a declaration consists of stands in it. -/
theorem within_of_mem_children {declaration : Node} (hf : p.function? f = some declaration)
    (h : t ∈ declaration.children) : p.Within f t :=
  ⟨declaration, hf, mem_nodes_of_child h⟩

/-! ## Checking

Separateness is a condition on all pairs of functions and on all chains of calls; a rank reduces
the second to single calls. -/

/-- Only a name of the table refers to a function. -/
theorem mem_names_of_function? {declaration : Node} (h : p.function? f = some declaration) :
    f ∈ p.functions.names := by
  by_contra hmem
  rw [function?, Table.find?_eq_none_iff.2 hmem, Option.bind_none] at h
  cases h

/-- Only functions of the table bind or call anything. -/
theorem mem_names_of_mem_map {α : Type} {g : Node → List α} {a : α}
    (h : a ∈ ((p.function? f).map g).getD []) : f ∈ p.functions.names := by
  cases hf : p.function? f with
  | some declaration => exact mem_names_of_function? hf
  | none =>
    rw [hf] at h
    cases h

/-- A rank that goes down with every call goes down along every chain of calls. -/
theorem rank_lt_of_calls {rank : String → Nat}
    (hrank : ∀ f ∈ p.functions.names, ∀ g ∈ p.calledNames f, rank g < rank f) {caller callee : String}
    (h : Relation.TransGen p.Calls caller callee) : rank callee < rank caller := by
  induction h with
  | single hcall => exact hrank _ (mem_names_of_mem_map hcall) _ hcall
  | tail _ hcall ih => exact Nat.lt_trans (hrank _ (mem_names_of_mem_map hcall) _ hcall) ih

/-- **A check of separateness**, with a rank that goes down with every call. -/
theorem separate_of_rank (rank : String → Nat)
    (hdisjoint : ∀ f ∈ p.functions.names, ∀ g ∈ p.functions.names, f ≠ g →
      ∀ name ∈ p.boundNames f, name ∉ p.boundNames g)
    (hrank : ∀ f ∈ p.functions.names, ∀ g ∈ p.calledNames f, rank g < rank f) : p.Separate := by
  constructor
  · intro f g name hne hf hg
    exact hdisjoint f (mem_names_of_mem_map hf) g (mem_names_of_mem_map hg) hne name hf hg
  · intro f hf
    exact Nat.lt_irrefl _ (rank_lt_of_calls hrank hf)

end Program
end Scriptlet
