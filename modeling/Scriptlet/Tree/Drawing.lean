import Scriptlet.Tree

/-!
Drawings of trees.

A drawing is a tree turned a quarter to the left: one line per node, the children of a node to its
right, the last child on top.  A node's own line stands below its middle child, and is marked by
dots and a bar where it has children.  The children start five columns behind the last character
of the label.

Drawing is done from right to left in the tree and from top to bottom on the page: the lines of the
later children come first.  The loop over the children is the one that decides where the own line
goes, after the lines of the middle child (`arrangeFrom`).
-/

namespace Scriptlet
namespace Node

/-- Columns between the start of a label and its children, the label apart. -/
def drawingGap : Nat := 4

/-- A node's own line. -/
def ownLine (offset : Nat) (label : List Char) (isLeaf : Bool) : List Char :=
  List.replicate offset ' ' ++ label ++
    if isLeaf then [] else List.replicate drawingGap '.' ++ ['|']

/-- Goes through the children from the last to the first, and adds the own line when it has added
those of the child with the number `middle`.  The first child that is given has the number `index`.
-/
def arrangeFrom {α : Type} (own : α) (middle index : Nat) : List (List α) → List α
  | [] => []
  | lines :: others =>
    arrangeFrom own middle (index + 1) others ++ lines ++ if index = middle then [own] else []

/-- The lines of the children with the own line among them.  A leaf has only its own line. -/
def arrange {α : Type} (own : α) (children : List (List α)) : List α :=
  if children.isEmpty then [own] else arrangeFrom own (children.length / 2) 0 children

mutual

/-- The lines of the drawing of a node that starts in column `offset`. -/
def drawingLines (offset : Nat) : Node → List (List Char)
  | ⟨label, children, _⟩ =>
    let shown := label.display.toList
    arrange (ownLine offset shown children.isEmpty)
      (drawingLinesOfAll (offset + drawingGap + shown.length) children)

/-- The drawings of several nodes that start in the same column. -/
def drawingLinesOfAll (offset : Nat) : List Node → List (List (List Char))
  | [] => []
  | n :: ns => drawingLines offset n :: drawingLinesOfAll offset ns

end

/-- The drawing of a tree: each line after a line break. -/
def drawing (n : Node) : String :=
  String.ofList ((drawingLines 0 n).flatMap fun line => '\n' :: line)

/-- The drawing of a tree that may be missing. -/
def drawing? : Option Node → String
  | some n => n.drawing
  | none => "No tree"

end Node
end Scriptlet
