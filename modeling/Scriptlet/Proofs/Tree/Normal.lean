import Scriptlet.Proofs.Tree.Shape

/-!
Programs without blocks in blocks and without statements that are never reached.

A block that stands among the statements of a list can be left out, with its statements in its
place: it has no variables of its own.  And behind a statement that returns whenever it ends nothing
is reached.  The normal form of a program does both in every list of statements, from the inside out.

It leaves all nodes but lists alone (`normal_of_ne`), and its lists are as they should be
(`isNormalList_of_descend`): no block is among the statements, and none but the last returns.

Whether a statement returns whenever it ends is decided on the tree (`Node.returns`): a `return` does,
a block or a list does if one of its statements does, and a choice does if both of its blocks do.  A
loop does not, because its body may never be entered.  That what is decided so is true of every
evaluation is a matter of the semantics; here it is only a function of trees.

Normalising works from the inside out so that one pass is enough.  By the time a list is normalised,
its blocks are lists in normal form themselves, and splicing one in brings no block with it
(`isNormalList_normalList`).  All that a node is known by stays, its label and its line, so the
functions of the normal form are found under the same names (`function?_normal`).
-/

namespace Scriptlet

namespace Node

/-! ## Lists of statements

What is done to a list, and what decides where it is cut. -/

/-- The statements of a block in its place; any other statement as it is. -/
def spliced : Node → List Node
  | ⟨.block, [⟨.statements, nodes, _⟩], _⟩ => nodes
  | t => [t]

mutual

/-- Does the statement return whenever it ends?  A list counts as a statement: it does if one of its
statements does. -/
def returns : Node → Bool
  | ⟨.returnValue, _, _⟩ => true
  | ⟨.block, list :: _, _⟩ => list.returns
  | ⟨.statements, nodes, _⟩ => anyReturns nodes
  | ⟨.ifThen, [_, consequence, alternative], _⟩ => consequence.returns && alternative.returns
  | _ => false

/-- Does one of the statements return whenever it ends? -/
def anyReturns : List Node → Bool
  | [] => false
  | t :: ts => t.returns || anyReturns ts

end

/-- Some statement of a list returns whenever it ends. -/
theorem anyReturns_iff {nodes : List Node} :
    anyReturns nodes = true ↔ ∃ t ∈ nodes, t.returns = true := by
  induction nodes with
  | nil => simp [anyReturns]
  | cons t ts ih => simp [anyReturns, ih]

/-- The body of a function returns: its last statement is a `return`. -/
theorem IsFunction.returns_body {function body : Node} (h : IsFunction function)
    (hbody : function.children.getLast? = some body) : body.returns = true := by
  cases h with
  | function hparameters hnodes =>
    rw [List.getLast?_concat, Option.some.injEq] at hbody
    subst hbody
    exact anyReturns_iff.2 ⟨_, List.mem_concat_self, rfl⟩

/-- The statements up to the first that returns. -/
def untilReturning : List Node → List Node
  | [] => []
  | t :: ts => if t.returns then [t] else t :: untilReturning ts

/-- A list whose blocks have been replaced by their statements, up to the first that returns. -/
def normalList (nodes : List Node) : List Node := untilReturning (nodes.flatMap spliced)

mutual

/-- The tree with every list of statements in normal form. -/
def normal : Node → Node
  | ⟨.statements, nodes, line⟩ => ⟨.statements, normalList (normalOfAll nodes), line⟩
  | ⟨label, children, line⟩ => ⟨label, normalOfAll children, line⟩

/-- The trees, each in normal form. -/
def normalOfAll : List Node → List Node
  | [] => []
  | t :: ts => t.normal :: normalOfAll ts

end

theorem normalOfAll_eq (nodes : List Node) : normalOfAll nodes = nodes.map normal := by
  induction nodes with
  | nil => rfl
  | cons t ts ih =>
    show t.normal :: normalOfAll ts = _
    rw [ih]
    rfl

/-- A list is normalised after its statements have been. -/
theorem normal_statements (nodes : List Node) (line : Nat) :
    normal ⟨.statements, nodes, line⟩ = ⟨.statements, normalList (nodes.map normal), line⟩ := by
  rw [← normalOfAll_eq]
  rfl

/-- Other nodes keep their children. -/
theorem normal_of_ne {t : Node} (h : t.label ≠ .statements) :
    t.normal = ⟨t.label, t.children.map normal, t.line⟩ := by
  obtain ⟨label, children, line⟩ := t
  rw [normal, normalOfAll_eq]
  exact h

@[simp] theorem label_normal (t : Node) : t.normal.label = t.label := by
  by_cases h : t.label = .statements
  · obtain ⟨label, children, line⟩ := t
    cases h
    rfl
  · rw [normal_of_ne h]

@[simp] theorem line_normal (t : Node) : t.normal.line = t.line := by
  by_cases h : t.label = .statements
  · obtain ⟨label, children, line⟩ := t
    cases h
    rfl
  · rw [normal_of_ne h]

/-- Only a block is replaced. -/
theorem spliced_of_ne {t : Node} (h : t.label ≠ .block) : t.spliced = [t] := by
  obtain ⟨label, children, line⟩ := t
  unfold spliced
  split
  · next heq =>
    cases heq
    exact absurd rfl h
  · rfl

/-- The normal form of a block among other statements. -/
theorem spliced_normal_block (nodes : List Node) (list line : Nat) :
    (normal ⟨.block, [⟨.statements, nodes, list⟩], line⟩).spliced =
      normalList (nodes.map normal) := by
  rw [← normalOfAll_eq]
  rfl

/-! ## What normal lists look like -/

/-- No block is among the statements, and none but the last returns. -/
structure IsNormalList (nodes : List Node) : Prop where
  flat : ∀ t ∈ nodes, t.label ≠ .block
  reached : ∀ t ∈ nodes.dropLast, t.returns = false

theorem mem_of_mem_untilReturning {nodes : List Node} {t : Node} (h : t ∈ untilReturning nodes) :
    t ∈ nodes := by
  induction nodes with
  | nil => exact h
  | cons u us ih =>
    rw [untilReturning] at h
    split at h
    · rw [List.mem_singleton.1 h]
      exact List.mem_cons_self
    · rcases List.mem_cons.1 h with rfl | hrest
      · exact List.mem_cons_self
      · exact List.mem_cons_of_mem _ (ih hrest)

/-- Only the last of the statements that are kept returns. -/
theorem returns_of_mem_dropLast {nodes : List Node} {t : Node}
    (h : t ∈ (untilReturning nodes).dropLast) : t.returns = false := by
  induction nodes with
  | nil => cases h
  -- the last node is the one that may return, and it is dropped
  | cons u us ih =>
    rw [untilReturning] at h
    split at h
    · cases h
    · next hu =>
      cases hrest : untilReturning us with
      | nil =>
        rw [hrest] at h
        cases h
      | cons v vs =>
        rw [hrest, List.dropLast_cons_of_ne_nil (List.cons_ne_nil v vs)] at h
        rcases List.mem_cons.1 h with rfl | hmem
        · exact Bool.eq_false_iff.2 hu
        · rw [← hrest] at hmem
          exact ih hmem

/-- Whatever is in a normal list is the normal form of a statement that is no block, however many
blocks it has been in. -/
theorem exists_of_mem_normalList {nodes : List Node} {u : Node}
    (h : ∀ node ∈ nodes, IsStatement node) (hu : u ∈ normalList (nodes.map normal)) :
    ∃ t, IsStatement t ∧ t.label ≠ .block ∧ u = t.normal := by
  obtain ⟨v, hv, huv⟩ := List.mem_flatMap.1 (mem_of_mem_untilReturning hu)
  obtain ⟨t, ht, rfl⟩ := List.mem_map.1 hv
  -- a block is spliced, so look inside; by well-formedness its list has statements only
  by_cases hlabel : t.label = .block
  · have hblock : IsBlock t := by
      cases h t ht with
      | block hblock => exact hblock
      | _ => cases hlabel
    cases hblock with
    | @statements line list inner hinner =>
      rw [spliced_normal_block] at huv
      have hsize : sizeOf inner < sizeOf nodes := by
        have hlt := List.sizeOf_lt_of_mem ht
        simp only [mk.sizeOf_spec, List.cons.sizeOf_spec] at hlt
        omega
      exact exists_of_mem_normalList hinner huv
  · rw [spliced_of_ne (by rw [label_normal]; exact hlabel)] at huv
    exact ⟨t, h t ht, hlabel, List.mem_singleton.1 huv⟩
termination_by sizeOf nodes

/-- The list that is made of normal statements is in normal form. -/
theorem isNormalList_normalList {nodes : List Node} (h : ∀ node ∈ nodes, IsStatement node) :
    IsNormalList (normalList (nodes.map normal)) := by
  constructor
  · intro u hu
    obtain ⟨t, -, hlabel, rfl⟩ := exists_of_mem_normalList h hu
    rw [label_normal]
    exact hlabel
  · intro u hu
    exact returns_of_mem_dropLast hu

/-- A list below the root of a well-formed program. -/
theorem IsInner.exists_statements {t : Node} (h : IsInner t) (hlabel : t.label = .statements) :
    ∃ nodes line, t = ⟨.statements, nodes, line⟩ ∧ ∀ node ∈ nodes, IsStatement node := by
  -- only lists of statements have that label
  cases h with
  | function h =>
    cases h
    cases hlabel
  | statement h =>
    cases h with
    | statement h =>
      cases h with
      | block h =>
        cases h
        cases hlabel
      | _ => cases hlabel
    | statements h => exact ⟨_, _, rfl, h⟩
  | condition h =>
    have hphrase := h.phrase
    rw [hlabel] at hphrase
    cases hphrase

/-- The children of a normal form are the normal forms of nodes of the program. -/
theorem IsInner.exists_of_mem_children {t u : Node} (h : IsInner t) (hu : u ∈ t.normal.children) :
    ∃ v, IsInner v ∧ u = v.normal := by
  by_cases hlabel : t.label = .statements
  · obtain ⟨nodes, line, rfl, hnodes⟩ := h.exists_statements hlabel
    rw [normal_statements] at hu
    obtain ⟨v, hv, -, rfl⟩ := exists_of_mem_normalList hnodes hu
    exact ⟨v, .statement (.statement hv), rfl⟩
  · rw [normal_of_ne hlabel] at hu
    obtain ⟨v, hv, rfl⟩ := List.mem_map.1 hu
    exact ⟨v, h.children v hv, rfl⟩

/-- So is every list below a node, by induction on the path to it. -/
theorem IsInner.isNormalList {t u : Node} {path : List Nat} (h : IsInner t)
    (hu : t.normal.descend? path = some u) (hlabel : u.label = .statements) :
    IsNormalList u.children := by
  induction path generalizing t with
  | nil =>
    cases hu
    rw [label_normal] at hlabel
    obtain ⟨nodes, line, rfl, hnodes⟩ := h.exists_statements hlabel
    rw [normal_statements]
    exact isNormalList_normalList hnodes
  | cons i path ih =>
    obtain ⟨child, hchild, hrest⟩ := Option.bind_eq_some_iff.1 hu
    obtain ⟨v, hv, rfl⟩ := h.exists_of_mem_children (List.mem_of_getElem? hchild)
    exact ih hv hrest

end Node

/-- The program with every list of statements in normal form. -/
def Program.normal (p : Program) : Program := { p with root := p.root.normal }

namespace Program

variable {p : Program}

/-- The functions of the normal form are the normal forms of the functions. -/
theorem children_normal (hp : p.WellFormed) :
    p.normal.root.children = p.root.children.map Node.normal := by
  have hlabel : p.root.label ≠ .statements := by
    rw [hp.label]
    nofun
  show p.root.normal.children = _
  rw [Node.normal_of_ne hlabel]

/-- What a name refers to is in normal form. -/
theorem function?_normal (hp : p.WellFormed) (name : String) :
    p.normal.function? name = (p.function? name).map Node.normal := by
  unfold function?
  rw [children_normal hp]
  show (p.functions.find? name).bind _ = _
  cases p.functions.find? name with
  | none => rfl
  | some position => simp

/-- In the normal form of a well-formed program every list of statements is normal. -/
theorem isNormalList_of_descend (hp : p.WellFormed) {path : List Nat} {node : Node}
    (h : p.normal.root.descend? path = some node) (hlabel : node.label = .statements) :
    Node.IsNormalList node.children := by
  cases path with
  | nil =>
    cases h
    have hroot : p.root.normal.label = .statements := hlabel
    rw [Node.label_normal, hp.label] at hroot
    cases hroot
  | cons i path =>
    obtain ⟨child, hchild, hrest⟩ := Option.bind_eq_some_iff.1 h
    rw [children_normal hp] at hchild
    obtain ⟨function, hfunction, rfl⟩ := List.mem_map.1 (List.mem_of_getElem? hchild)
    exact (Node.IsInner.function (hp.functions function hfunction)).isNormalList hrest hlabel

/-- The statements of the inner blocks come into the list of the function, and what stands behind
the `return` is left out. -/
example :
    ((parse "fun main() { x = 1; { { write(x) } return x } write(2) }").toOption.bind fun p =>
        (p.normal.root.descend? [0, 0, 0]).map fun list => list.children.map Node.label) =
      some [.assign, .write, .returnValue] := by decide +kernel

end Program
end Scriptlet
