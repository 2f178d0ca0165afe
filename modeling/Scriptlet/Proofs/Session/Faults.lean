import Scriptlet.Proofs.Grammar.Delivery
import Scriptlet.Proofs.Session.Requests
import Scriptlet.Proofs.Tree.Declarations
import Scriptlet.Proofs.Tree.Origin

/-!
The stage and the line of every error.

An error comes from one of three stages, and its line takes a different way in each: a lexical error
has the line that the scanner has counted, an error of the grammar that of the current token, an error
of a run that of a node.  What the ways have in common is that they start from tokens.  The tokens of
a text are on its lines, and so is a misfit behind them (`isLine_of_parse_error`); every node of a
program has the line of a token (`exists_token_of_mem_nodes`); and a run halts at a node of the
program or finds that there is no function to start in (`placedIn_of_runIn`).

The three stages are those of the causes: each cause belongs to one (`Cause.stage`), and an error of
the reading never has a cause of the running, nor the other way round.  A program without an entry
point is an error of its own kind.  It is found by a run and belongs to it, but no node is to blame,
and it has no line.

Lines are compared with the source text by counting its line breaks.  A text has one line more than it
has line breaks, also if it ends in one; the end marker stands there.

Main statement: `staged_errors`.
-/

namespace Scriptlet

/-- The source text has a line of this number. -/
def IsLine (source : String) (line : Nat) : Prop :=
  1 ≤ line ∧ line ≤ 1 + source.toList.count '\n'

/-- An error of the reading, of tokens or of the grammar. -/
def Error.OfReading (e : Error) : Prop := e.stage = .lexical ∨ e.stage = .grammatical

theorem Error.ofReading_iff {e : Error} : e.OfReading ↔ e.stage ≠ .running := by
  unfold OfReading
  cases e.stage <;> decide

/-! ## Lines of tokens -/

/-- The tokens of a stream are on the lines of its text, and so is the error in which it ends. -/
theorem Segments.lines {line : Nat} {s : List Char} {stream : TokenStream}
    (h : Segments line s stream) :
    (∀ t ∈ stream.tokens, line ≤ t.line ∧ t.line ≤ line + s.count '\n') ∧
      ∀ e, stream.ending = .error e →
        ∃ last, e.line = some last ∧ line ≤ last ∧ last ≤ line + s.count '\n' := by
  cases h with
  | finish h =>
    refine ⟨fun t ht => ⟨h.le_line t ht, h.line_le t ht⟩, ?_⟩
    intro e he
    cases he
  | @misfit done rest ts cause h hmisfit =>
    have hcount : (done ++ rest).count '\n' = done.count '\n' + rest.count '\n' :=
      List.count_append
    constructor
    · intro t ht
      have hle := h.line_le t ht
      refine ⟨h.le_line t ht, ?_⟩
      omega
    · intro e he
      cases he
      refine ⟨_, rfl, Nat.le_add_right _ _, ?_⟩
      omega

variable {source : String} {p : Program}

/-- The stream of a source text is on its lines, comments or not. -/
theorem TokenStream.isLine_of_ofSource :
    (∀ t ∈ (ofSource source).delivered, IsLine source t.line) ∧
      ∀ e, (ofSource source).ending = .error e →
        ∃ line, e.line = some line ∧ IsLine source line := by
  have hstream := (segments_ofText 1 (eraseComments source.toList)).lines
  -- taking the comments out leaves the line breaks
  have hcount : (eraseComments source.toList).count '\n' = source.toList.count '\n' :=
    count_eraseCommentsFrom false source.toList
  rw [hcount] at hstream
  obtain ⟨htokens, hending⟩ := hstream
  refine ⟨?_, hending⟩
  intro t ht
  unfold delivered at ht
  split at ht
  · next last hlast =>
    rcases List.mem_append.1 ht with hmem | hmem
    · exact htokens t hmem
    · rw [List.mem_singleton.1 hmem, eq_endMarker hlast]
      exact ⟨Nat.le_add_right _ _, Nat.le_refl _⟩
  · exact htokens t ht

/-! ## Lines of nodes

A node has the line of one of the tokens that it was read from. -/

/-- What holds of every node of a tree holds of the members of its list of nodes. -/
theorem Node.Every.of_mem_nodes {q : Node → Prop} {t : Node} (h : t.Every q) :
    ∀ node ∈ t.nodes, q node := by
  induction h with
  | @node t h hchildren ih =>
    intro node hnode
    rw [Node.nodes_eq] at hnode
    rcases List.mem_cons.1 hnode with rfl | hbelow
    · exact h
    · obtain ⟨child, hchild, hmem⟩ := Node.exists_of_mem_nodesOfAll hbelow
      exact ih child hchild node hmem

namespace Program

/-- Every node of a program has the line of a token, or of the end marker. -/
theorem exists_token_of_mem_nodes (h : parse source = .ok p) :
    ∃ ts, tokens source = .ok ts ∧ ∀ node ∈ p.root.nodes,
      ∃ token ∈ ts ++ [endMarker source], node.line = token.line := by
  obtain ⟨ts, hts, hfrom⟩ := fromTokens_of_parse h
  refine ⟨ts, hts, ?_⟩
  intro node hnode
  obtain ⟨token, htoken, hline⟩ := hfrom.of_mem_nodes node hnode
  exact ⟨token, htoken, hline.1⟩

theorem isLine_of_mem_nodes (h : parse source = .ok p) {node : Node} (hnode : node ∈ p.root.nodes) :
    IsLine source node.line := by
  obtain ⟨ts, hts, hlines⟩ := exists_token_of_mem_nodes h
  obtain ⟨token, htoken, hline⟩ := hlines node hnode
  have hdelivered : (TokenStream.ofSource source).delivered = ts ++ [endMarker source] := by
    rw [tokens_eq_ok_iff.1 hts]
    rfl
  rw [← hdelivered] at htoken
  rw [hline]
  exact TokenStream.isLine_of_ofSource.1 token htoken

/-! ## Errors by stage

The three stages exclude each other, by their causes. -/

/-- An error of the reading is lexical or one of the grammar, and on a line of the text. -/
theorem isLine_of_parse_error {e : Error} (h : parse source = .error e) :
    e.OfReading ∧ ∃ line, e.line = some line ∧ IsLine source line := by
  rcases reported_of_parse_error h with ⟨htokens, hstage, -⟩ | ⟨hstage, -, t, ht, hline⟩
  · have hending := tokens_eq_error_iff.1 htokens
    exact ⟨Or.inl hstage, TokenStream.isLine_of_ofSource.2 e hending⟩
  · exact ⟨Or.inr hstage, t.line, hline, TokenStream.isLine_of_ofSource.1 t ht⟩

/-- A run halts at a node of the program, or there is no function to start in. -/
theorem placedIn_of_runIn {fuel : Nat} {s : Session} {e : Halt}
    (h : (p.runIn fuel s).1 = .error e) : e.PlacedIn p := by
  rw [← outcome_run] at h
  exact (Dialogue.keepsTo_run fuel).placedIn h

/-- Without a function to start in nothing is run. -/
theorem runIn_of_missing {fuel : Nat} {s : Session} (h : p.function? entryPoint = none) :
    p.runIn fuel s = (.error (.fault ⟨.missingMain, none⟩), s) := by
  refine runIn_of_error ?_
  unfold Evaluation.run
  rw [h]
  rfl

/-- An error of a run: no function to start in is declared, or one is and the error is at a node. -/
theorem error_of_runIn (hp : parse source = .ok p) {fuel : Nat} {s : Session} {e : Error}
    (h : (p.runIn fuel s).1 = .error (.fault e)) :
    (e = ⟨.missingMain, none⟩ ∧ ∀ f ∈ p.root.children, f.label ≠ .function entryPoint) ∨
      (¬ ∀ f ∈ p.root.children, f.label ≠ .function entryPoint) ∧
        ∃ node ∈ p.root.nodes, ∃ cause, e = .onLine node.line cause ∧ cause.AtNode := by
  rw [← function?_eq_none_iff hp]
  cases hmain : p.function? entryPoint with
  | none =>
    rw [runIn_of_missing hmain] at h
    cases h
    exact Or.inl ⟨rfl, rfl⟩
  | some function =>
    rcases placedIn_of_runIn h e rfl with ⟨-, hnone⟩ | hnode
    · rw [hmain] at hnone
      cases hnone
    · exact Or.inr ⟨Option.some_ne_none _, hnode⟩

/-- What the stage, the cause and the line of an error say about the source text. -/
structure Explains (source : String) (e : Error) : Prop where
  reading : e.OfReading ↔ ∃ e', parse source = .error e'
  running : e.stage = .running ↔ ∃ p, parse source = .ok p
  missing : e.cause = .missingMain ↔
    ∃ p, parse source = .ok p ∧ ∀ f ∈ p.root.children, f.label ≠ .function entryPoint
  unplaced : e.line = none ↔ e.cause = .missingMain
  placed : ∀ line, e.line = some line → IsLine source line

theorem explains_of_parse_error {e : Error} (h : parse source = .error e) : Explains source e := by
  obtain ⟨hreading, line, hline, hbounds⟩ := isLine_of_parse_error h
  have hstage : e.stage ≠ .running := Error.ofReading_iff.1 hreading
  have hcause : e.cause ≠ .missingMain := by
    intro hmissing
    refine hstage ?_
    rw [Error.stage, hmissing]
    rfl
  have hrefused : ∀ p, parse source ≠ .ok p := by
    intro p hp
    cases h.symm.trans hp
  -- there is a line and no run, so each part of `Explains` goes one way
  constructor
  · exact ⟨fun _ => ⟨e, h⟩, fun _ => hreading⟩
  · refine ⟨fun hrunning => absurd hrunning hstage, ?_⟩
    rintro ⟨p, hp⟩
    exact absurd hp (hrefused p)
  · refine ⟨fun hmissing => absurd hmissing hcause, ?_⟩
    rintro ⟨p, hp, -⟩
    exact absurd hp (hrefused p)
  · rw [hline]
    exact ⟨fun hnone => (Option.some_ne_none _ hnone).elim, fun hmissing => absurd hmissing hcause⟩
  · intro line' hline'
    rw [hline] at hline'
    cases hline'
    exact hbounds

theorem explains_of_runIn (hp : parse source = .ok p) {fuel : Nat} {s : Session} {e : Error}
    (h : (p.runIn fuel s).1 = .error (.fault e)) : Explains source e := by
  have hread : ∀ e', parse source ≠ .error e' := by
    intro e' he'
    cases hp.symm.trans he'
  have hunique : ∀ q, parse source = .ok q → q = p := by
    intro q hq
    cases hp.symm.trans hq
    rfl
  -- an error of a run is none of the reading
  have hreading : e.stage = .running → (e.OfReading ↔ ∃ e', parse source = .error e') := by
    intro hstage
    refine ⟨fun hreading => absurd hstage (Error.ofReading_iff.1 hreading), ?_⟩
    rintro ⟨e', he'⟩
    exact absurd he' (hread e')
  rcases error_of_runIn hp h with ⟨rfl, hnone⟩ | ⟨hmain, node, hnode, cause, rfl, hcause⟩
  · refine ⟨hreading rfl, ⟨fun _ => ⟨p, hp⟩, fun _ => rfl⟩, ⟨fun _ => ⟨p, hp, hnone⟩, fun _ => rfl⟩,
      ⟨fun _ => rfl, fun _ => rfl⟩, ?_⟩
    intro line hline
    cases hline
  · have hstage : (Error.onLine node.line cause).stage = .running := hcause.1
    refine ⟨hreading hstage, ⟨fun _ => ⟨p, hp⟩, fun _ => hstage⟩, ⟨?_, ?_⟩, ⟨?_, ?_⟩, ?_⟩
    · intro hmissing
      exact absurd hmissing hcause.2
    · rintro ⟨q, hq, hnone⟩
      rw [hunique q hq] at hnone
      exact absurd hnone hmain
    · intro hnone
      cases hnone
    · intro hmissing
      exact absurd hmissing hcause.2
    · intro line hline
      cases hline
      exact isLine_of_mem_nodes hp hnode

/-- **Errors are staged and point into the source.**

* A text that is refused is refused with the error of the reading, before anything is written or
  read.
* An error is one of the reading if and only if the text is refused, and comes from the run
  otherwise. It is that of a missing function to start in if and only if the text is read and
  declares none.  Every error but that one has a line, and it is a line of the text (`Explains`).
* Every node of a program has the line of a token of the text or of its end marker, and the line of
  every error of a run is that of a node. -/
theorem staged_errors (fuel : Nat) (source : String) (discipline : Discipline) (input : List UInt8)
    (output : Output) :
    (∀ e, parse source = .error e →
      (runSource fuel source discipline input output).outcome = .error (.fault e) ∧
        (runSource fuel source discipline input output).output = output ∧
        (runSource fuel source discipline input output).rest = input) ∧
    (∀ e, (runSource fuel source discipline input output).outcome = .error (.fault e) →
      Explains source e) ∧
    ∀ p, parse source = .ok p →
      (∃ ts, tokens source = .ok ts ∧ ∀ node ∈ p.root.nodes,
        ∃ token ∈ ts ++ [endMarker source], node.line = token.line) ∧
      ∀ e line, (runSource fuel source discipline input output).outcome = .error (.fault e) →
        e.line = some line → ∃ node ∈ p.root.nodes, node.line = line := by
  refine ⟨fun e he => runSource_of_error he fuel discipline input output, ?_, ?_⟩
  · -- an error is one of reading, or one of running what has been read
    intro e he
    cases hparse : parse source with
    | error e' =>
      rw [(runSource_of_error hparse fuel discipline input output).1] at he
      cases he
      exact explains_of_parse_error hparse
    | ok p =>
      rw [(runSource_of_ok hparse fuel discipline input output).1] at he
      exact explains_of_runIn hparse he
  · intro p hp
    refine ⟨exists_token_of_mem_nodes hp, ?_⟩
    intro e line he hline
    rw [(runSource_of_ok hp fuel discipline input output).1] at he
    rcases error_of_runIn hp he with ⟨rfl, -⟩ | ⟨-, node, hnode, cause, rfl, -⟩
    · cases hline
    · cases hline
      exact ⟨node, hnode, rfl⟩

end Program
end Scriptlet
