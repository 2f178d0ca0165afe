import Mathlib
import Scriptlet.Proofs.Tree.Names
import Scriptlet.Tree.Drawing

/-!
What a drawing shows, and where.

The lines of a drawing stand for the nodes of the tree, and a node is told from all others by the path
that leads to it from the root.  So there is an order of paths behind a drawing (`Node.order`), which
is arranged as its lines are: the loop over the children comes by the middle one exactly once, however
many there are (`arrange_eq`), and there the own line goes in.  Each line is then a function of its
path (`Node.lineAt`): the columns before it are those that its proper ancestors take up.

Everything else is said of the order.

* **Each path is in it once.**  The order is, up to a permutation, the node itself and then what is
  below each child (`order_perm`), and what is below different children begins with different numbers.
* **The paths through a node stand together.**  What is below a child is one of the parts that the
  order is made of, so it is an infix of it, and by induction on the path so is what is below any node
  (`infix_order`).
* **The own line is in the middle**: the children are drawn from the last to the first, those of the
  upper half of the list above, the others below.
* **The leaves come in it from the right to the left**, because in each node the branches do, and a
  leaf is a node in one branch.

The drawing itself is a list of lines, and a text only at the end.  That one line stands for one path
needs that labels have no line breaks in them; a text literal may, and then its line is drawn as two.

Main statement: `Node.drawn_in_order`.
-/

namespace Scriptlet
namespace Node

/-! ## The loop over the children

It counts the children as it goes, and puts the own line in at the middle one. -/

section Arrange

variable {α β : Type} {own : α}

/-- Behind the middle the own line is not added any more. -/
theorem arrangeFrom_of_lt {middle index : Nat} (h : middle < index) (children : List (List α)) :
    arrangeFrom own middle index children = children.reverse.flatten := by
  induction children generalizing index with
  | nil => rfl
  | cons lines others ih =>
    rw [arrangeFrom, ih (Nat.lt_succ_of_lt h), if_neg (by omega), List.append_nil,
      List.reverse_cons, List.flatten_append, List.flatten_singleton]

/-- The own line is added once, when the child in the middle has been. -/
theorem arrangeFrom_of_le {middle index : Nat} {children : List (List α)} (h : index ≤ middle)
    (hmiddle : middle < index + children.length) :
    arrangeFrom own middle index children =
      (children.drop (middle - index)).reverse.flatten ++
        own :: (children.take (middle - index)).reverse.flatten := by
  induction children generalizing index with
  | nil => exact absurd hmiddle (Nat.not_lt_of_le h)
  | cons lines others ih =>
    rw [arrangeFrom]
    by_cases hhere : index = middle
    · rw [arrangeFrom_of_lt (by omega), if_pos hhere, hhere, Nat.sub_self, List.drop_zero,
        List.take_zero, List.reverse_cons, List.flatten_append, List.flatten_singleton]
      rfl
    · rw [List.length_cons] at hmiddle
      rw [ih (by omega) (by omega), if_neg hhere,
        show middle - index = middle - (index + 1) + 1 by omega, List.drop_succ_cons,
        List.take_succ_cons, List.reverse_cons, List.flatten_append, List.flatten_singleton,
        List.append_nil, List.append_assoc, List.cons_append]

/-- **The own line stands once among the children**, whatever their number. -/
theorem arrange_eq (own : α) (children : List (List α)) :
    arrange own children =
      (children.drop (children.length / 2)).reverse.flatten ++
        own :: (children.take (children.length / 2)).reverse.flatten := by
  unfold arrange
  cases children with
  | nil => simp
  | cons lines others =>
    rw [List.isEmpty_cons, if_neg Bool.false_ne_true]
    have hmiddle : (lines :: others).length / 2 < 0 + (lines :: others).length := by
      rw [List.length_cons]
      omega
    exact arrangeFrom_of_le (Nat.zero_le _) hmiddle

/-- The arrangement goes by the places in the list, so it does not matter when the parts are
computed. -/
theorem map_arrange (f : α → β) (own : α) (children : List (List α)) :
    (arrange own children).map f = arrange (f own) (children.map (List.map f)) := by
  rw [arrange_eq, arrange_eq, List.length_map, List.map_append, List.map_cons, List.map_flatten,
    List.map_flatten, List.map_reverse, List.map_reverse, List.map_drop, List.map_take]

/-- Nothing is lost and nothing comes twice. -/
theorem arrange_perm (own : α) (children : List (List α)) :
    (arrange own children).Perm (own :: children.flatten) := by
  generalize hmiddle : children.length / 2 = middle
  have hsplit : ((children.take middle).flatten ++ (children.drop middle).flatten) =
      children.flatten := by
    rw [← List.flatten_append, List.take_append_drop]
  rw [arrange_eq, hmiddle, ← hsplit]
  refine List.perm_middle.trans (List.Perm.cons own ?_)
  refine List.perm_append_comm.trans ?_
  exact (List.reverse_perm _).flatten.append (List.reverse_perm _).flatten

/-- The lines of a child stay together. -/
theorem infix_arrange {children : List (List α)} {lines : List α} (h : lines ∈ children) :
    lines <:+: arrange own children := by
  have hflatten : ∀ {l : List (List α)}, lines ∈ l → lines <:+: l.reverse.flatten := by
    intro l hl
    obtain ⟨before, after, hl⟩ := List.append_of_mem (List.mem_reverse.2 hl)
    refine ⟨before.flatten, after.flatten, ?_⟩
    rw [hl, List.flatten_append, List.flatten_cons, List.append_assoc]
  rw [arrange_eq]
  rw [← List.take_append_drop (children.length / 2) children] at h
  rcases List.mem_append.1 h with hlow | hhigh
  · exact (hflatten hlow).trans ((List.suffix_cons _ _).isInfix.trans (List.suffix_append _ _).isInfix)
  · exact (hflatten hhigh).trans (List.prefix_append _ _).isInfix

end Arrange

/-! ## The order of the nodes

The drawing without its labels: which node is on which line. -/

mutual

/-- The nodes of a tree in the order of their lines, each by its path from the root. -/
def order : Node → List (List Nat)
  | ⟨_, children, _⟩ => arrange [] (orderOfAll 0 children)

/-- The nodes below several children of one node, the first of which has the number `index`. -/
def orderOfAll (index : Nat) : List Node → List (List (List Nat))
  | [] => []
  | n :: ns => n.order.map (index :: ·) :: orderOfAll (index + 1) ns

end

/-- The nodes below the child with a number. -/
def branch (n : Node) (i : Nat) : List (List Nat) :=
  match n.children[i]? with
  | some child => child.order.map (i :: ·)
  | none => []

variable {n child m : Node} {i : Nat} {path : List Nat}

/-- The branch of a child that is there. -/
theorem branch_of_child (h : n.children[i]? = some child) : n.branch i = child.order.map (i :: ·) := by
  unfold branch
  rw [h]

/-- The branches of several children, by their place among them. -/
theorem getElem?_orderOfAll (index : Nat) (ns : List Node) (j : Nat) :
    (orderOfAll index ns)[j]? = ns[j]?.map fun n => n.order.map ((index + j) :: ·) := by
  induction ns generalizing index j with
  | nil => rfl
  | cons n ns ih =>
    rw [orderOfAll]
    cases j with
    | zero => rfl
    | succ j =>
      rw [List.getElem?_cons_succ, List.getElem?_cons_succ, ih, Nat.add_right_comm, Nat.add_assoc]

theorem length_orderOfAll (index : Nat) (ns : List Node) :
    (orderOfAll index ns).length = ns.length := by
  induction ns generalizing index with
  | nil => rfl
  | cons n ns ih => rw [orderOfAll, List.length_cons, List.length_cons, ih]

/-- A list is given by what stands at its numbers. -/
theorem map_range_eq {α : Type} {f : Nat → α} {l : List α} (h : ∀ i a, l[i]? = some a → f i = a) :
    (List.range l.length).map f = l := by
  apply List.ext_getElem
  · rw [List.length_map, List.length_range]
  · intro i _ hi
    rw [List.getElem_map, List.getElem_range]
    exact h i _ (List.getElem?_eq_getElem hi)

/-- The branches of all children, by their numbers. -/
theorem orderOfAll_eq (n : Node) :
    orderOfAll 0 n.children = (List.range n.children.length).map n.branch := by
  rw [← length_orderOfAll 0]
  refine (map_range_eq fun i paths hpaths => ?_).symm
  rw [getElem?_orderOfAll, Nat.zero_add] at hpaths
  obtain ⟨child, hchild, rfl⟩ := Option.map_eq_some_iff.1 hpaths
  exact branch_of_child hchild

/-- The order is that of the branches, with the node itself among them. -/
theorem order_eq_arrange (n : Node) :
    n.order = arrange [] ((List.range n.children.length).map n.branch) := by
  rw [← orderOfAll_eq]
  obtain ⟨label, children, line⟩ := n
  rw [order]

/-- The numbers of the children from the last one to that in the middle. -/
def upper (k : Nat) : List Nat := ((List.range k).drop (k / 2)).reverse

/-- The numbers of the other children, down to the first. -/
def lower (k : Nat) : List Nat := (List.range (k / 2)).reverse

/-- The two halves are the two parts of the same list, each backwards. -/
theorem lower_eq (k : Nat) : lower k = ((List.range k).take (k / 2)).reverse := by
  rw [lower, List.take_range, Nat.min_eq_left (Nat.div_le_self _ _)]

/-- **The branches come from the last to the first**, and the node itself comes in the middle. -/
theorem order_eq (n : Node) :
    n.order =
      (upper n.children.length).flatMap n.branch ++
        [] :: (lower n.children.length).flatMap n.branch := by
  rw [order_eq_arrange, arrange_eq, List.length_map, List.length_range, ← List.map_drop,
    ← List.map_take, ← List.map_reverse, ← List.map_reverse, ← List.flatMap_def, ← List.flatMap_def,
    ← lower_eq]
  rfl

/-- The order in another order: the node, and then its branches from the first to the last. -/
theorem order_perm (n : Node) :
    n.order.Perm ([] :: (List.range n.children.length).flatMap n.branch) := by
  rw [order_eq_arrange, List.flatMap_def]
  exact arrange_perm _ _

/-- A path of a branch is the number of the child with a path of the child behind it. -/
theorem mem_branch_iff : path ∈ n.branch i ↔
    ∃ child rest, n.children[i]? = some child ∧ rest ∈ child.order ∧ path = i :: rest := by
  unfold branch
  cases n.children[i]? with
  | none => simp
  | some child =>
    constructor
    · intro h
      obtain ⟨rest, hrest, rfl⟩ := List.mem_map.1 h
      exact ⟨child, rest, rfl, hrest, rfl⟩
    · rintro ⟨_, rest, ⟨rfl⟩, hrest, rfl⟩
      exact List.mem_map_of_mem hrest

theorem nil_mem_order (n : Node) : [] ∈ n.order := n.order_perm.mem_iff.2 List.mem_cons_self

/-- What is below a child is reached through the child. -/
theorem cons_mem_order_iff {rest : List Nat} :
    i :: rest ∈ n.order ↔ ∃ child, n.children[i]? = some child ∧ rest ∈ child.order := by
  rw [n.order_perm.mem_iff, List.mem_cons, or_iff_right (by simp), List.mem_flatMap]
  constructor
  · rintro ⟨j, -, hmem⟩
    obtain ⟨child, others, hchild, hothers, heq⟩ := mem_branch_iff.1 hmem
    obtain ⟨rfl, rfl⟩ := List.cons.inj heq
    exact ⟨child, hchild, hothers⟩
  · rintro ⟨child, hchild, hrest⟩
    have hlt : i < n.children.length := (List.getElem?_eq_some_iff.1 hchild).1
    exact ⟨i, List.mem_range.2 hlt, mem_branch_iff.2 ⟨child, rest, hchild, hrest, rfl⟩⟩

/-- **Every node has a line**, and nothing else has. -/
theorem mem_order_iff : path ∈ n.order ↔ (n.descend? path).isSome = true := by
  induction path generalizing n with
  | nil => exact iff_of_true n.nil_mem_order rfl
  | cons i rest ih =>
    rw [cons_mem_order_iff]
    show _ ↔ (n.children[i]?.bind fun child => child.descend? rest).isSome = true
    cases n.children[i]? with
    | none => simp
    | some child =>
      rw [Option.bind_some, ← ih]
      simp

/-- A tree is treated by treating the children of a node before the node. -/
@[elab_as_elim]
theorem byChildren {motive : Node → Prop}
    (h : ∀ n : Node, (∀ child ∈ n.children, motive child) → motive n) (n : Node) : motive n :=
  h n fun child _ => byChildren h child
termination_by sizeOf n
decreasing_by exact sizeOf_lt_of_mem ‹_›

/-- **No node has two lines.** -/
theorem nodup_order (n : Node) : n.order.Nodup := by
  induction n using byChildren with
  | h n ih =>
    -- the path of the node is empty, and those of its branches begin with their numbers
    rw [n.order_perm.nodup_iff, List.nodup_cons, List.nodup_flatMap]
    refine ⟨?_, ?_, ?_⟩
    · intro hmem
      obtain ⟨i, -, hbranch⟩ := List.mem_flatMap.1 hmem
      obtain ⟨child, rest, -, -, heq⟩ := mem_branch_iff.1 hbranch
      cases heq
    · rintro i -
      cases hchild : n.children[i]? with
      | none =>
        unfold branch
        rw [hchild]
        exact List.nodup_nil
      | some child =>
        rw [branch_of_child hchild]
        have hinjective : Function.Injective (i :: · : List Nat → List Nat) := List.cons_injective
        exact (ih child (List.mem_of_getElem? hchild)).map hinjective
    · refine List.nodup_range.imp ?_
      intro i j hne path hi hj
      obtain ⟨child, rest, -, -, rfl⟩ := mem_branch_iff.1 hi
      obtain ⟨other, others, -, -, heq⟩ := mem_branch_iff.1 hj
      exact hne (List.cons.inj heq).1

/-! ## Lines

The text of a line, as a function of the path. -/

/-- The label of the node at the end of a path, as it is shown. -/
def shownAt (n : Node) (path : List Nat) : List Char :=
  match n.descend? path with
  | some m => m.label.display.toList
  | none => []

/-- The column in which a node starts: each proper ancestor takes up its label and four more. -/
def column (n : Node) (path : List Nat) : Nat :=
  (path.inits.dropLast.map fun ancestor => 4 + (n.shownAt ancestor).length).sum

/-- The line of the node at the end of a path: blanks, its label, and a mark if it has children. -/
def lineAt (n : Node) (path : List Nat) : List Char :=
  match n.descend? path with
  | some m =>
    List.replicate (n.column path) ' ' ++ m.label.display.toList ++
      if m.isLeaf then [] else ['.', '.', '.', '.', '|']
  | none => []

theorem descend?_cons (h : n.children[i]? = some child) (path : List Nat) :
    n.descend? (i :: path) = child.descend? path := by
  rw [descend?, h, Option.bind_some]

theorem descend?_append (n : Node) (path rest : List Nat) :
    n.descend? (path ++ rest) = (n.descend? path).bind fun m => m.descend? rest := by
  induction path generalizing n with
  | nil => rfl
  | cons i path ih =>
    rw [List.cons_append, descend?, descend?, Option.bind_assoc]
    congr 1
    funext child
    exact ih child

/-- What is shown at the end of a path is shown of the child. -/
theorem shownAt_cons (h : n.children[i]? = some child) (path : List Nat) :
    n.shownAt (i :: path) = child.shownAt path := by
  unfold shownAt
  rw [descend?_cons h]

/-- Below a child the columns start behind the label of the node. -/
theorem column_cons (h : n.children[i]? = some child) (path : List Nat) :
    n.column (i :: path) = 4 + n.label.display.toList.length + child.column path := by
  have hne : path.inits.map (i :: ·) ≠ [] := by
    cases path <;> simp
  unfold column
  rw [List.inits_cons, List.dropLast_cons_of_ne_nil hne, List.map_cons, List.sum_cons,
    ← List.map_dropLast, List.map_map]
  congr 3
  funext ancestor
  rw [Function.comp_apply, shownAt_cons h]

/-- So the line of a node is that of its place in the tree of the child, further to the right. -/
theorem lineAt_cons (h : n.children[i]? = some child) (hpath : path ∈ child.order) :
    n.lineAt (i :: path) =
      List.replicate (4 + n.label.display.toList.length) ' ' ++ child.lineAt path := by
  obtain ⟨m, hm⟩ := Option.isSome_iff_exists.1 (mem_order_iff.1 hpath)
  unfold lineAt
  rw [descend?_cons h, hm, column_cons h, ← List.replicate_append_replicate]
  dsimp only
  rw [List.append_assoc, List.append_assoc, List.append_assoc]

theorem drawingLinesOfAll_eq (offset : Nat) (ns : List Node) :
    drawingLinesOfAll offset ns = ns.map (drawingLines offset) := by
  induction ns with
  | nil => rfl
  | cons n ns ih => rw [drawingLinesOfAll, ih, List.map_cons]

/-- The line of the node itself, behind the columns that are taken. -/
theorem ownLine_eq (offset : Nat) (n : Node) :
    ownLine offset n.label.display.toList n.children.isEmpty =
      List.replicate offset ' ' ++ n.lineAt [] := by
  unfold ownLine lineAt
  rw [List.append_assoc]
  rfl

/-- **The lines are those of the nodes**, in their order. -/
theorem drawingLines_eq (offset : Nat) (n : Node) :
    drawingLines offset n =
      n.order.map fun path => List.replicate offset ' ' ++ n.lineAt path := by
  induction n using byChildren generalizing offset with
  | h n ih =>
    have hown := ownLine_eq offset n
    -- each branch is drawn further to the right, by as much as the label takes
    have hbranches : drawingLinesOfAll (offset + drawingGap + n.label.display.toList.length) n.children =
        ((List.range n.children.length).map n.branch).map
          (List.map fun path => List.replicate offset ' ' ++ n.lineAt path) := by
      rw [← orderOfAll_eq, drawingLinesOfAll_eq]
      apply List.ext_getElem?
      intro j
      rw [List.getElem?_map, List.getElem?_map, getElem?_orderOfAll, Nat.zero_add]
      cases hchild : n.children[j]? with
      | none => rfl
      | some child =>
        rw [Option.map_some, Option.map_some, Option.map_some, List.map_map,
          ih child (List.mem_of_getElem? hchild)]
        congr 1
        refine List.map_congr_left fun path hpath => ?_
        rw [Function.comp_apply, lineAt_cons hchild hpath, ← List.append_assoc,
          List.replicate_append_replicate, ← Nat.add_assoc]
        rfl
    rw [order_eq_arrange, map_arrange, ← hbranches, ← hown]
    obtain ⟨label, children, line⟩ := n
    rw [drawingLines]

/-- Lines without a line break are found again in the text that they make. -/
theorem splitOn_lines {lines : List (List Char)} (h : ∀ line ∈ lines, '\n' ∉ line)
    {first : List Char} (hfirst : '\n' ∉ first) :
    (first ++ lines.flatMap fun line => '\n' :: line).splitOn '\n' = first :: lines := by
  have hnone : ∀ {line : List Char}, '\n' ∉ line → ∀ c ∈ line, (c == '\n') = false := by
    intro line hline c hc
    refine beq_false_of_ne ?_
    rintro rfl
    exact hline hc
  induction lines generalizing first with
  | nil =>
    rw [List.flatMap_nil, List.append_nil]
    exact List.splitOnP_eq_singleton (hnone hfirst)
  | cons line lines ih =>
    obtain ⟨hline, hlines⟩ := List.forall_mem_cons.1 h
    rw [List.flatMap_cons, List.cons_append, List.splitOn,
      List.splitOnP_append_cons_of_forall_mem (hnone hfirst) '\n' (beq_self_eq_true _)]
    exact congrArg (first :: ·) (ih hlines hline)

/-- What a path leads to is in the tree. -/
theorem mem_nodes_of_descend (h : n.descend? path = some m) : m ∈ n.nodes := by
  induction path generalizing n with
  | nil =>
    cases h
    exact mem_nodes_self _
  | cons i path ih =>
    obtain ⟨child, hchild, hpath⟩ := Option.bind_eq_some_iff.1 h
    have hmem := mem_nodes_of_child (List.mem_of_getElem? hchild)
    exact nodes_subset n hmem (ih hpath)

/-- A line is one line if the label is. -/
theorem lineBreak_notMem_lineAt (h : ∀ m ∈ n.nodes, '\n' ∉ m.label.display.toList)
    (path : List Nat) : '\n' ∉ n.lineAt path := by
  have hmark : ∀ b : Bool, '\n' ∉ if b then [] else ['.', '.', '.', '.', '|'] := by decide
  have hblank : ∀ k, '\n' ∉ List.replicate k ' ' := by
    intro k hmem
    exact absurd (List.eq_of_mem_replicate hmem) (by decide)
  unfold lineAt
  split
  · next m hm =>
    rw [List.mem_append, List.mem_append, not_or, not_or]
    exact ⟨⟨hblank _, h m (mem_nodes_of_descend hm)⟩, hmark _⟩
  · exact List.not_mem_nil

/-! ## Subtrees

What is below a node stands together. -/

/-- The nodes in the order that the path leads to or through. -/
def block (order : List (List Nat)) (path : List Nat) : List (List Nat) :=
  order.filter fun other => path.isPrefixOf other

/-- The order of a subtree is a part of the order. -/
theorem infix_order (h : n.descend? path = some m) : m.order.map (path ++ ·) <:+: n.order := by
  induction path generalizing n with
  | nil =>
    cases h
    have hself : (m.order.map fun other => [] ++ other) = m.order := List.map_id _
    rw [hself]
  | cons i path ih =>
    obtain ⟨child, hchild, hpath⟩ := Option.bind_eq_some_iff.1 h
    have hlt : i < n.children.length := (List.getElem?_eq_some_iff.1 hchild).1
    have hbranch : n.branch i <:+: n.order := by
      rw [order_eq_arrange]
      exact infix_arrange (List.mem_map_of_mem (List.mem_range.2 hlt))
    have hbelow := (ih hpath).map (i :: ·)
    rw [List.map_map, ← branch_of_child hchild] at hbelow
    exact hbelow.trans hbranch

/-- A part of a list without duplicates is what is left when all else is taken out. -/
theorem filter_eq_of_infix {α : Type} {l part : List α} {p : α → Bool} (h : part <:+: l)
    (hnodup : l.Nodup) (hp : ∀ a ∈ l, p a = true ↔ a ∈ part) : l.filter p = part := by
  obtain ⟨before, after, rfl⟩ := h
  obtain ⟨hfirst, -, hafter⟩ := List.nodup_append.1 hnodup
  obtain ⟨-, -, hbefore⟩ := List.nodup_append.1 hfirst
  have hnone : before.filter p = [] := by
    refine List.filter_eq_nil_iff.2 fun a ha hpa => ?_
    have hin := List.mem_append_left after (List.mem_append_left part ha)
    exact hbefore a ha a ((hp a hin).1 hpa) rfl
  have hall : part.filter p = part := by
    refine List.filter_eq_self.2 fun a ha => ?_
    exact (hp a (List.mem_append_left after (List.mem_append_right before ha))).2 ha
  have hnone' : after.filter p = [] := by
    refine List.filter_eq_nil_iff.2 fun a ha hpa => ?_
    have hin := (hp a (List.mem_append_right _ ha)).1 hpa
    exact hafter a (List.mem_append_right before hin) a ha rfl
  rw [List.filter_append, List.filter_append, hnone, hall, hnone', List.append_nil, List.nil_append]

/-- **The nodes of a subtree stand together**, in the order of the subtree. -/
theorem block_order (h : n.descend? path = some m) :
    block n.order path = m.order.map (path ++ ·) := by
  refine filter_eq_of_infix (infix_order h) n.nodup_order fun other hother => ?_
  rw [List.isPrefixOf_iff_prefix]
  constructor
  · rintro ⟨rest, rfl⟩
    rw [mem_order_iff, descend?_append, h, Option.bind_some, ← mem_order_iff] at hother
    exact List.mem_map_of_mem hother
  · intro hmem
    obtain ⟨rest, -, rfl⟩ := List.mem_map.1 hmem
    exact List.prefix_append path rest

/-- Where a path leads nowhere, no longer path leads anywhere. -/
theorem block_of_none (h : n.descend? path = none) : block n.order path = [] := by
  refine List.filter_eq_nil_iff.2 fun other hother hprefix => ?_
  obtain ⟨rest, rfl⟩ := List.isPrefixOf_iff_prefix.1 hprefix
  rw [mem_order_iff, descend?_append, h] at hother
  cases hother

/-- What a path leads to or through stands together; where it leads nowhere there is nothing. -/
theorem infix_block (n : Node) (path : List Nat) : block n.order path <:+: n.order := by
  cases h : n.descend? path with
  | none =>
    rw [block_of_none h]
    exact List.nil_infix
  | some m =>
    rw [block_order h]
    exact infix_order h

/-- The nodes below a child of a node stand together as well. -/
theorem block_child (h : n.descend? path = some m) (i : Nat) :
    block n.order (path ++ [i]) = (m.branch i).map (path ++ ·) := by
  have hpath : n.descend? (path ++ [i]) = m.descend? [i] := by
    rw [descend?_append, h, Option.bind_some]
  cases hchild : m.children[i]? with
  | none =>
    have hnone : m.descend? [i] = none := by
      rw [descend?, hchild, Option.bind_none]
    rw [block_of_none (hpath.trans hnone), branch, hchild, List.map_nil]
  | some child =>
    have hsome : m.descend? [i] = some child := descend?_cons hchild []
    rw [block_order (hpath.trans hsome), branch_of_child hchild, List.map_map]
    refine List.map_congr_left fun rest _ => ?_
    rw [List.append_assoc]
    rfl

/-- **A node stands below its upper children and above its lower ones.** -/
theorem block_eq (h : n.descend? path = some m) :
    block n.order path =
      (upper m.children.length).flatMap (fun i => block n.order (path ++ [i])) ++
        path :: (lower m.children.length).flatMap fun i => block n.order (path ++ [i]) := by
  rw [block_order h, order_eq, List.map_append, List.map_cons, List.append_nil, List.map_flatMap,
    List.map_flatMap]
  simp only [block_child h]

/-! ## Leaves

The leaves of a tree in their own order, and in that of the drawing. -/

mutual

/-- The leaves of a tree from the left to the right. -/
def leaves : Node → List Node
  | ⟨label, children, line⟩ =>
    if children.isEmpty then [⟨label, children, line⟩] else leavesOfAll children

/-- The leaves of several trees. -/
def leavesOfAll : List Node → List Node
  | [] => []
  | n :: ns => n.leaves ++ leavesOfAll ns

end

/-- The leaves of several trees, one tree after the other. -/
theorem leavesOfAll_eq (ns : List Node) : leavesOfAll ns = ns.flatMap leaves := by
  induction ns with
  | nil => rfl
  | cons n ns ih => rw [leavesOfAll, ih, List.flatMap_cons]

/-- A node is a leaf itself or has the leaves of its children. -/
theorem leaves_eq (n : Node) : n.leaves = if n.isLeaf then [n] else n.children.flatMap leaves := by
  rw [← leavesOfAll_eq]
  obtain ⟨label, children, line⟩ := n
  rw [leaves]
  rfl

/-- The leaf at the end of a path. -/
def leafAt? (n : Node) (path : List Nat) : Option Node := (n.descend? path).filter isLeaf

theorem leafAt?_cons (h : n.children[i]? = some child) (path : List Nat) :
    n.leafAt? (i :: path) = child.leafAt? path := by
  unfold leafAt?
  rw [descend?_cons h]

/-- Read from the end the branches come from the first to the last. -/
theorem reverse_order (n : Node) :
    n.order.reverse =
      ((List.range n.children.length).take (n.children.length / 2)).flatMap
          (fun i => (n.branch i).reverse) ++
        [] :: ((List.range n.children.length).drop (n.children.length / 2)).flatMap
          fun i => (n.branch i).reverse := by
  have hreverse : ∀ l : List Nat,
      (l.reverse.flatMap n.branch).reverse = l.flatMap fun i => (n.branch i).reverse := by
    intro l
    rw [List.reverse_flatMap, List.reverse_reverse]
    rfl
  rw [order_eq, lower_eq, upper, List.reverse_append, List.reverse_cons, hreverse, hreverse,
    List.append_assoc, List.singleton_append]

/-- The leaves of a child, by its number. -/
def leavesAt (n : Node) (i : Nat) : List Node :=
  match n.children[i]? with
  | some child => child.leaves
  | none => []

/-- The leaves of all children, by their numbers. -/
theorem flatMap_leavesAt (n : Node) :
    (List.range n.children.length).flatMap n.leavesAt = n.children.flatMap leaves := by
  rw [List.flatMap_def, List.flatMap_def, ← List.length_map leaves]
  congr 1
  refine map_range_eq fun i below hbelow => ?_
  rw [List.getElem?_map] at hbelow
  obtain ⟨child, hchild, rfl⟩ := Option.map_eq_some_iff.1 hbelow
  rw [leavesAt, hchild]

/-- **From the bottom to the top the leaves are those from the left to the right.** -/
theorem filterMap_leafAt?_order (n : Node) : n.order.reverse.filterMap n.leafAt? = n.leaves := by
  induction n using byChildren with
  | h n ih =>
    have hbranch : ∀ i, (n.branch i).reverse.filterMap n.leafAt? = n.leavesAt i := by
      intro i
      cases hchild : n.children[i]? with
      | none =>
        rw [branch, leavesAt, hchild]
        rfl
      | some child =>
        have hbelow : child.order.reverse.filterMap (n.leafAt? ∘ (i :: ·)) =
            child.order.reverse.filterMap child.leafAt? :=
          List.filterMap_congr fun path _ => leafAt?_cons hchild path
        rw [branch_of_child hchild, ← List.map_reverse, List.filterMap_map, hbelow,
          ih child (List.mem_of_getElem? hchild), leavesAt, hchild]
    have hbranches : ∀ l : List Nat,
        (l.flatMap fun i => (n.branch i).reverse).filterMap n.leafAt? = l.flatMap n.leavesAt := by
      intro l
      rw [List.filterMap_flatMap]
      exact List.flatMap_congr fun i _ => hbranch i
    rw [reverse_order, List.filterMap_append, hbranches, List.filterMap_cons, hbranches, leaves_eq]
    cases hleaf : n.isLeaf with
    | true =>
      -- a leaf has no branches
      have hself : n.leafAt? [] = some n := Option.filter_some_pos hleaf
      have hchildren : n.children = [] := List.isEmpty_iff.1 hleaf
      rw [hself, hchildren]
      rfl
    | false =>
      have hnone : n.leafAt? [] = none := Option.filter_some_neg hleaf
      rw [hnone, ← List.flatMap_append, List.take_append_drop, flatMap_leavesAt]
      rfl

/-! ## The drawing -/

/-- How a tree is drawn: `order` lists its nodes in the order of their lines, each by its path from
the root. -/
structure DrawnIn (n : Node) (order : List (List Nat)) : Prop where
  /-- Behind a first line break the text has one line for each path. -/
  lines : n.drawing.toList.splitOn '\n' = [] :: order.map n.lineAt
  once : order.Nodup
  every : ∀ path, path ∈ order ↔ (n.descend? path).isSome = true
  /-- The lines of a subtree are next to each other. -/
  contiguous : ∀ path, block order path <:+: order
  /-- The subtrees below a node come from the last to the first, with the node among them. -/
  arranged : ∀ path m, n.descend? path = some m →
    block order path =
      (upper m.children.length).flatMap (fun i => block order (path ++ [i])) ++
        path :: (lower m.children.length).flatMap fun i => block order (path ++ [i])
  leaves : (order.reverse.filterMap n.descend?).filter isLeaf = n.leaves

/-- **The drawing of a tree** whose labels have no line breaks: one line for each node, at the place
that its path gives it. -/
theorem drawn_in_order (n : Node) (h : ∀ m ∈ n.nodes, '\n' ∉ m.label.display.toList) :
    n.DrawnIn n.order := by
  refine
    { lines := ?_
      once := n.nodup_order
      every := fun path => mem_order_iff
      contiguous := n.infix_block
      arranged := fun path m hpath => block_eq hpath
      leaves := ?_ }
  · -- every line is preceded by a line break, so splitting there gives them back
    have htext : n.drawing.toList = (n.order.map n.lineAt).flatMap fun line => '\n' :: line := by
      rw [drawing, String.toList_ofList, drawingLines_eq]
      rfl
    have hlines : ∀ line ∈ n.order.map n.lineAt, '\n' ∉ line := by
      intro line hline
      obtain ⟨path, -, rfl⟩ := List.mem_map.1 hline
      exact lineBreak_notMem_lineAt h path
    rw [htext]
    exact splitOn_lines hlines List.not_mem_nil
  · rw [List.filter_filterMap]
    exact n.filterMap_leafAt?_order

/-- A call with three arguments, the second of which is a sum. -/
def nestedCall : Node :=
  ⟨.call "f",
    [.leaf (.identifier "a") 1,
      .binary (.operator .add) (.leaf (.identifier "b") 1) (.leaf (.identifier "c") 1) 1,
      .leaf (.identifier "d") 1], 1⟩

theorem drawn_in_order_nestedCall :
    (∀ m ∈ nestedCall.nodes, '\n' ∉ m.label.display.toList) ∧
      nestedCall.DrawnIn [[2], [1, 1], [1], [1, 0], [], [0]] ∧
      nestedCall.drawing =
        "\n       d\n            c\n       +....|\n            b\nf()....|\n       a" := by
  have hlabels : ∀ m ∈ nestedCall.nodes, '\n' ∉ m.label.display.toList := by
    decide
  exact ⟨hlabels, drawn_in_order nestedCall hlabels, by decide⟩

end Node
end Scriptlet
