import Scriptlet.Proofs.Grammar.Declared
import Scriptlet.Proofs.Session.Safety
import Scriptlet.Proofs.Text.ByteOrder
import Scriptlet.Proofs.Tree.Declarations

/-!
The function table describes the tree.

The table holds positions, which are entered while the tree is still being read.  What it says in the
end depends only on the children of the root: a name refers to the last of them that declares it
(`LastOf`).  Evaluation looks at a program through its table and nowhere else (`step_congr`), so a
declaration that is followed by another of the same name takes no part in a run, and it makes no
difference where a call stands in the source.

There are three statements in one.  The first is about the table as a table: each name once, in order,
with positions in range.  The second is about what it means: the position of a name is that of the
last declaration of it (`function?_eq_some_iff`), since a declaration takes the place of an earlier
one of its name when it is entered.  The third is about execution: a call of the name, and the start
of a run, go to that declaration, with its parameters and its body (`executes_of_function?`).

For the comparison with the source there is a second way to find declarations, by the reserved word in
the tokens (`Declared`).  It gives the same names in the same order, so the children of the root are
one for each declaration in the text.

Main statement: `table_describes_tree`.
-/

namespace Scriptlet

/-- The function is the last one of the list that declares the name. -/
def Node.LastOf (functions : List Node) (name : String) (f : Node) : Prop :=
  ∃ before behind, functions = before ++ f :: behind ∧ f.label = .function name ∧
    ∀ g ∈ behind, g.label ≠ .function name

/-- The last declaration is the first one from behind. -/
theorem Node.lastOf_iff {functions : List Node} {name : String} {f : Node} :
    LastOf functions name f ↔
      functions.reverse.find? (fun g => g.label = .function name) = some f := by
  rw [List.find?_eq_some_iff_append]
  constructor
  · rintro ⟨before, behind, rfl, hlabel, hbehind⟩
    refine ⟨by simpa using hlabel, behind.reverse, before.reverse, by simp, ?_⟩
    simpa using hbehind
  · rintro ⟨hlabel, behind, before, heq, hbehind⟩
    refine ⟨before.reverse, behind.reverse, ?_, by simpa using hlabel, by simpa using hbehind⟩
    rw [← List.reverse_reverse functions, heq]
    simp

namespace Evaluation

/-- Executes a function: the parameters get the arguments, and the body is evaluated. -/
def execute (eval : Evaluator) (name : String) (parameters : List Node) (body : Node)
    (arguments : List Value) (line : Nat) : Evaluation Value :=
  if parameters.length ≠ arguments.length then
    fault line (.parameterCount name parameters.length arguments.length)
  else do
    report (.calling name arguments)
    enter name
    assignAll parameters arguments
    match ← eval body with
    | .returned v => pure v
    | _ => do
      resume
      pure .none

variable {p q : Program}

/-! ## A run sees the program only through the table

Two programs with the same functions under the same names run alike. -/

/-- One level looks at the functions by their names only. -/
theorem step_congr (h : ∀ name, p.function? name = q.function? name) (n : Nat) (eval : Evaluator)
    (t : Node) : step p n eval t = step q n eval t := by
  have hinvoke : invoke p eval = invoke q eval := by
    funext name arguments line
    unfold invoke
    rw [h]
  unfold step
  rw [hinvoke]

theorem evaluate_congr (h : ∀ name, p.function? name = q.function? name) (fuel : Nat) :
    evaluate p fuel = evaluate q fuel := by
  induction fuel with
  | zero => rfl
  | succ n ih =>
    funext t
    rw [evaluate_succ, evaluate_succ, ih]
    exact step_congr h n _ t

theorem run_congr (h : ∀ name, p.function? name = q.function? name) (fuel : Nat) :
    run p fuel = run q fuel := by
  unfold run invoke
  rw [h, evaluate_congr h]

end Evaluation

namespace Program

open Evaluation Node

variable {source : String} {p : Program} {name : String}

/-! ## The positions and the names -/

/-- The positions of the table are positions of children. -/
theorem lt_length_of_mem_entries (h : parse source = .ok p) {entry : String × Nat}
    (hentry : entry ∈ p.functions.entries) : entry.2 < p.root.children.length := by
  have hfind := Table.find?_of_mem hentry
  obtain ⟨ts, -, hderives⟩ := derives_of_parse h
  generalize ts ++ [endMarker source] = all at hderives
  cases hderives with
  | program hdeclarations hlast =>
    have hlt := lt_length_of_find?_tableFrom hfind
    rw [List.length_map] at hlt
    simpa [ofDeclarations] using hlt

/-- A name is in the table exactly if it refers to something. -/
theorem mem_names_iff (h : parse source = .ok p) :
    name ∈ p.functions.names ↔ ∃ f ∈ p.root.children, f.label = .function name := by
  constructor
  · intro hmem
    obtain ⟨⟨name, position⟩, hentry, rfl⟩ := List.mem_map.1 hmem
    have hlt := lt_length_of_mem_entries h hentry
    have hsome : p.function? name ≠ none := by
      rw [function?, Table.find?_of_mem hentry, Option.bind_some, List.getElem?_eq_getElem hlt]
      exact Option.some_ne_none _
    by_contra hnone
    exact hsome ((function?_eq_none_iff h).2 fun f hf hlabel => hnone ⟨f, hf, hlabel⟩)
  · rintro ⟨f, hf, hlabel⟩
    cases hfunction : p.function? name with
    | some declaration => exact mem_names_of_function? hfunction
    | none => exact absurd hlabel ((function?_eq_none_iff h).1 hfunction f hf)

/-- The names of a program are those in its table. -/
theorem mem_functionNames : name ∈ p.functionNames ↔ name ∈ p.functions.names := by
  simp [functionNames]

/-- The names are listed in the order of their bytes, without duplicates. -/
theorem functionNames_increasing :
    p.functionNames.Pairwise fun a b => Text.bytes a < Text.bytes b := by
  have hsorted : p.functionNames.Pairwise fun a b => decide (a ≤ b) = true := by
    refine List.pairwise_mergeSort (fun a b c hab hbc => ?_) (fun a b => ?_) _
    · exact decide_eq_true (le_trans (of_decide_eq_true hab) (of_decide_eq_true hbc))
    · simpa using le_total a b
  have hnodup : p.functionNames.Nodup :=
    (List.mergeSort_perm _ _).nodup_iff.2 p.functions.nodup
  refine (hsorted.and hnodup).imp ?_
  rintro a b ⟨hle, hne⟩
  exact Text.lt_iff_bytes_lt.1 (lt_of_le_of_ne (of_decide_eq_true hle) hne)

/-! ## What is executed -/

/-- Every call of the name executes the function with these parts, wherever the call stands and
whatever the arguments are; so does the run itself if the name is that of the entry point. -/
structure Executes (p : Program) (name : String) (parameters : List Node) (body : Node)
    (own : Nat) : Prop where
  call : ∀ fuel arguments line, evaluate p (fuel + 1) ⟨.call name, arguments, line⟩ = (do
    let values ← valuesOf (evaluate p fuel) arguments
    let value ← execute (evaluate p fuel) name parameters body values line
    pure (.value value))
  run : name = entryPoint → ∀ fuel, run p fuel = (do
    let value ← execute (evaluate p fuel) name parameters body [] own
    flush own
    pure value)

/-- A function that is found is executed with its own parameters and body. -/
theorem executes_of_function? (hp : p.WellFormed) {f : Node} (h : p.function? name = some f) :
    ∃ parameters body, f.children = parameters ++ [body] ∧
      p.Executes name parameters body f.line := by
  cases hp.functions f (mem_of_function? h) with
  | function hparameters hnodes =>
    refine ⟨_, _, rfl, fun fuel arguments line => ?_, ?_⟩
    · rw [evaluate_succ, step_call]
      simp only [invoke_of_function? h]
      rfl
    · rintro rfl fuel
      unfold Evaluation.run
      rw [h]
      simp only [invoke_of_function? h]
      rfl

/-- The table of a program that has been read from a source text describes its tree.

The children of the root are the declarations of the source, in order, each derived from its place
there. A name refers to the last child that declares it.  All positions in the table are in range,
and the names are listed in the order of their bytes.  A call executes the last declaration, and so
does the run; any other program with the same last declarations runs in the same way. -/
structure Described (source : String) (p : Program) : Prop where
  children : ∃ ts, tokens source = .ok ts ∧
    List.Forall₂ Grammar.Declares (Grammar.declaredFrom (ts ++ [endMarker source]))
      p.root.children
  last : ∀ name f, p.function? name = some f ↔ LastOf p.root.children name f
  absent : ∀ name, p.function? name = none ↔ ∀ f ∈ p.root.children, f.label ≠ .function name
  inRange : ∀ entry ∈ p.functions.entries, entry.2 < p.root.children.length
  increasing : p.functionNames.Pairwise fun a b => Text.bytes a < Text.bytes b
  names : ∀ name, name ∈ p.functionNames ↔ ∃ f ∈ p.root.children, f.label = .function name
  executed : ∀ name f, LastOf p.root.children name f →
    ∃ parameters body, f.children = parameters ++ [body] ∧ p.Executes name parameters body f.line
  superseded : ∀ line (declarations : List (String × Node)),
    (∀ d ∈ declarations, d.2.label = .function d.1) →
    (∀ name f, LastOf (declarations.map Prod.snd) name f ↔ LastOf p.root.children name f) →
    ∀ fuel s, (ofDeclarations line declarations).runIn fuel s = p.runIn fuel s

/-- There is one child for each declaration in the tokens of the source. -/
theorem declares_children (h : parse source = .ok p) :
    ∃ ts, tokens source = .ok ts ∧
      List.Forall₂ Grammar.Declares (Grammar.declaredFrom (ts ++ [endMarker source]))
        p.root.children := by
  obtain ⟨ts, hts, hderives⟩ := derives_of_parse h
  refine ⟨ts, hts, ?_⟩
  generalize ts ++ [endMarker source] = all at hderives
  cases hderives with
  | program hdeclarations hlast =>
    exact hdeclarations.declares (by simp [hlast, Grammar.declaredFrom])

/-- A name refers to the last declaration of it. -/
theorem function?_eq_some_iff (h : parse source = .ok p) {f : Node} :
    p.function? name = some f ↔ LastOf p.root.children name f := by
  rw [function?_eq_find? h, lastOf_iff]

/-- **The function table describes the tree.** -/
theorem table_describes_tree (h : parse source = .ok p) : p.Described source where
  children := declares_children h
  last _ _ := function?_eq_some_iff h
  absent _ := function?_eq_none_iff h
  inRange _ hentry := lt_length_of_mem_entries h hentry
  increasing := functionNames_increasing
  names _ := mem_functionNames.trans (mem_names_iff h)
  executed _ _ hlast :=
    executes_of_function? (wellFormed_of_parse h) ((function?_eq_some_iff h).2 hlast)
  superseded line declarations hlabels hsame fuel s := by
    have hfunction : ∀ name, (ofDeclarations line declarations).function? name = p.function? name := by
      intro name
      refine Option.ext fun f => ?_
      rw [function?_eq_some_iff h, ← hsame, lastOf_iff, function?_ofDeclarations hlabels]
    unfold runIn
    rw [run_congr hfunction]

/-- A function that is called before it is declared, and declared twice. -/
theorem table_describes_tree_redefined :
    ∃ p, parse ("fun main() { write(f(1)) } fun f(a) { return a }\n" ++
        "fun f(b) { return b + 1 }") = .ok p ∧
      p.Described ("fun main() { write(f(1)) } fun f(a) { return a }\n" ++
        "fun f(b) { return b + 1 }") ∧
      p.root.children.filterMap Node.heading? =
        [⟨1, "main", []⟩, ⟨1, "f", ["a"]⟩, ⟨2, "f", ["b"]⟩] ∧
      p.functions.entries = [("main", 0), ("f", 2)] := by
  have hchecked : (parse ("fun main() { write(f(1)) } fun f(a) { return a }\n" ++
      "fun f(b) { return b + 1 }")).toOption.any
        fun p => decide (p.root.children.filterMap Node.heading? =
            [⟨1, "main", []⟩, ⟨1, "f", ["a"]⟩, ⟨2, "f", ["b"]⟩] ∧
          p.functions.entries = [("main", 0), ("f", 2)]) := by
    decide +kernel
  obtain ⟨p, hp, hcheck⟩ := exists_of_any hchecked
  obtain ⟨hchildren, hentries⟩ := of_decide_eq_true hcheck
  exact ⟨p, hp, table_describes_tree hp, hchildren, hentries⟩

end Program
end Scriptlet
