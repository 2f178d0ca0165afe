import Scriptlet.Table
import Scriptlet.Tree

/-!
Programs: a tree and its function table.

The children of the root are the declared functions in the order of the source, redeclared ones
included.  The table maps each name to the position of its last declaration, which is the one that
calls reach.

The positions of the table are those of children, and a name that is not in the table has no function.
There is nothing in a program that remembers the source text.
-/

namespace Scriptlet

/-- The name of the function in which a run starts. -/
def entryPoint : String := "main"

/-- A program that has been read. -/
structure Program where
  root : Node
  functions : Table Nat

namespace Program

/-- The table of the declarations `names`, the first of which has position `position`: a later
declaration replaces an earlier one of the same name. -/
def tableFrom (position : Nat) (table : Table Nat) : List String → Table Nat
  | [] => table
  | name :: names => tableFrom (position + 1) (table.insert name position) names

/-- The program of a list of declarations. -/
def ofDeclarations (line : Nat) (declarations : List (String × Node)) : Program where
  root := ⟨.program, declarations.map Prod.snd, line⟩
  functions := tableFrom 0 .empty (declarations.map Prod.fst)

/-- The declaration that a name refers to. -/
def function? (p : Program) (name : String) : Option Node :=
  (p.functions.find? name).bind fun position => p.root.children[position]?

/-- The declared names in increasing order of their characters. -/
def functionNames (p : Program) : List String :=
  p.functions.names.mergeSort fun a b => decide (a ≤ b)

end Program
end Scriptlet
