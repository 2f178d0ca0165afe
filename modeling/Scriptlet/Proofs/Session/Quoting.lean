import Scriptlet.Proofs.Session.Admission
import Scriptlet.Proofs.Session.Safety
import Scriptlet.Proofs.Value.Quoting

/-!
Quotes are delimiters in every run whose input has none.

A text of the program is a literal, and of the input a text without a quote.  Such texts are an
admission (`quoting`) together with their classification, so what is known of admissions holds of
them: every value that a run comes to is one (`closed_quoting`), and what is shown of it is the value
with the delimiters of a literal taken off.

The classification has to come with it.  That `+` makes a well quoted value of two such values depends
on what it makes of their characters: a number, if they read as one, and else a text.  Only of
classified values is it known which of the two their own characters are.

A run can therefore be said anew, with `+` and `write` going by the characters of the values
(`stepVerbatim`): it is the run that looks at the first character and strips both ends
(`runVerbatim_eq`).  The two evaluators are compared in one and the same session, step by step.  All
nodes but sums and writes do the same in both, by what is known of `Parallel`.  At a sum or a write
both come to the operands with well quoted values, and there the two operations are equal
(`gives_stepVerbatim` for expressions, `sameEffect_stepVerbatim` for statements).

That the input has no quote is said of its lines that are texts, and only of those: a line that is no
valid text ends the run and gives nobody a value.

Main statement: `keepsQuotes_of_parse`.
-/

namespace Scriptlet

/-! ## Input without quotes -/

/-- The lines of the input, each with its line break if it has one. -/
def linesOf : List UInt8 → List (List UInt8)
  | [] => []
  | b :: rest =>
    if b = lineBreak then [b] :: linesOf rest
    else
      match linesOf rest with
      | [] => [[b]]
      | line :: lines => (b :: line) :: lines

/-- No line that is a text contains a quote. -/
def QuoteFree (input : List UInt8) : Prop :=
  ∀ line ∈ linesOf input, ∀ text ∈ textOfBytes? line, quoteMark ∉ text.toList

instance (input : List UInt8) : Decidable (QuoteFree input) :=
  inferInstanceAs
    (Decidable (∀ line ∈ linesOf input, ∀ text ∈ textOfBytes? line, quoteMark ∉ text.toList))

/-- A line break by itself is a line. -/
theorem splitLine_lineBreak (rest : List UInt8) :
    splitLine (lineBreak :: rest) = ([lineBreak], rest) := by
  unfold splitLine
  rw [List.dropWhile_cons_of_neg (by simp), List.takeWhile_cons_of_neg (by simp)]
  rfl

/-- Any other character belongs to the line of what follows. -/
theorem splitLine_cons {b : UInt8} (h : b ≠ lineBreak) (rest : List UInt8) :
    splitLine (b :: rest) = (b :: (splitLine rest).1, (splitLine rest).2) := by
  unfold splitLine
  rw [List.dropWhile_cons_of_pos (by simpa using h), List.takeWhile_cons_of_pos (by simpa using h)]
  split <;> rfl

/-- The first of the lines is the one that is taken, and behind it are the others. -/
theorem linesOf_eq_cons {input : List UInt8} (h : input ≠ []) :
    linesOf input = (splitLine input).1 :: linesOf (splitLine input).2 := by
  induction input with
  | nil => exact absurd rfl h
  | cons b rest ih =>
    rw [linesOf]
    by_cases hb : b = lineBreak
    · rw [if_pos hb, hb, splitLine_lineBreak]
    · rw [if_neg hb, splitLine_cons hb]
      by_cases hrest : rest = []
      · rw [hrest]
        rfl
      · rw [ih hrest]

/-- A line of the input is one of the lines, and so are those behind it. -/
theorem QuoteFree.splitLine {input : List UInt8} (h : QuoteFree input) :
    (∀ text ∈ textOfBytes? (splitLine input).1, quoteMark ∉ text.toList) ∧
      QuoteFree (splitLine input).2 := by
  by_cases hinput : input = []
  · rw [hinput]
    refine ⟨?_, fun line hline => absurd hline List.not_mem_nil⟩
    decide +kernel
  · unfold QuoteFree at h
    rw [linesOf_eq_cons hinput] at h
    exact List.forall_mem_cons.1 h

/-- What is left of a line without its line break. -/
theorem mem_of_mem_lineContent {c : Char} {line : String} (h : c ∈ (lineContent line).toList) :
    c ∈ line.toList := by
  have hdrop : ∀ {d : Char} {s : List Char}, c ∈ dropTrailing d s → c ∈ s := by
    intro d s hmem
    unfold dropTrailing at hmem
    split at hmem
    · exact List.mem_of_mem_dropLast hmem
    · exact hmem
  rw [lineContent, String.toList_ofList] at h
  exact hdrop (hdrop h)

/-! ## The admission

Values and input that are in order, as an admission. -/

/-- Classified values whose quotes are delimiters, and input without quotes. -/
def quoting : Admission := ⟨fun v => v.isClassified && v.isWellQuoted, fun bytes => QuoteFree bytes⟩

/-- A value is admitted if it is classified and well quoted. -/
theorem quoting_value_iff {v : Value} :
    quoting.value v = true ↔ v.isClassified = true ∧ v.isWellQuoted = true := Bool.and_eq_true_iff

/-- The input is admitted if it has no quotes. -/
theorem quoting_input_iff {input : List UInt8} : quoting.input input = true ↔ QuoteFree input :=
  decide_eq_true_iff

/-- **The admission is closed**: literals, lines without quotes and sums of admitted values are
admitted. -/
theorem closed_quoting : quoting.Closed := by
  constructor
  · exact fun x => rfl
  · intro s h
    exact quoting_value_iff.2
      ⟨Value.isClassified_of_startsQuoted h.startsQuoted, Value.isWellQuoted_text_iff.2 (Or.inl h)⟩
  · intro a b ha hb
    exact quoting_value_iff.2 ⟨Value.isClassified_add a b,
      Value.isWellQuoted_add (quoting_value_iff.1 ha).2 (quoting_value_iff.1 hb).2⟩
  · intro bytes h
    exact quoting_input_iff.2 (quoting_input_iff.1 h).splitLine.2
  · intro bytes text h htext
    have hline := (quoting_input_iff.1 h).splitLine.1 text htext
    exact quoting_value_iff.2 ⟨Value.isClassified_ofText _,
      Value.isWellQuoted_ofText fun hmem => hline (mem_of_mem_lineContent hmem)⟩

namespace Evaluation

/-! ## Evaluation by the characters of values

The evaluator with two forms done in another way. -/

/-- One level of evaluation in which `+` joins, and `write` writes, values without the delimiters of
literals and with all their other characters. -/
def stepVerbatim (p : Program) (n : Nat) (eval : Evaluator) (node : Node) : Evaluation Completion :=
  match node.label with
  | .operator .add => do
    let (left, right) ← operands node
    let a ← valueOf eval left
    let b ← valueOf eval right
    pure (.value (a.joined b))
  | .write => do
    let expression ← operand node
    let value ← valueOf eval expression
    writeLine node.line value.verbatim
    pure .normal
  | _ => step p n eval node

/-- Evaluates a node of a program by the characters of values. -/
def evaluateVerbatim (p : Program) : Nat → Evaluator
  | 0, _ => throw .outOfFuel
  | n + 1, node => stepVerbatim p n (evaluateVerbatim p n) node

/-- Calls the entry point of a program, as `run` does. -/
def runVerbatim (p : Program) (fuel : Nat) : Evaluation Value :=
  match p.function? entryPoint with
  | none => throw (.fault ⟨.missingMain, none⟩)
  | some function => do
    let value ← invoke p (evaluateVerbatim p fuel) entryPoint [] function.line
    flush function.line
    pure value

open Node

/-- What the invariant says of values. -/
abbrev InOrder (v : Value) : Prop := quoting.value v = true

/-- What it says of the session that both evaluators are in, however many functions are active. -/
abbrev StaysInOrder (_ : Nat) (s : Session) : Prop := s.Admitted quoting

/-- The comparison is one of evaluators in one session, and of a tree with itself. -/
abbrev BelowVerbatim (eval eval' : Evaluator) : Prop :=
  Below (together StaysInOrder) Eq InOrder (Common StaysInOrder) (Itself InOrder) eval eval'

/-- The operations of a session keep its values in order. -/
theorem parallel_quoting : Parallel (together StaysInOrder) Eq InOrder (Common StaysInOrder) :=
  (invariant_admitted closed_quoting).parallel

section Levels

variable {p : Program} {n : Nat} {eval eval' : Evaluator} {t : Node} {d : Nat}

/-- **An expression.**  A sum of values in order is what they are joined to by their characters; on
every other form the two levels are the same. -/
theorem gives_stepVerbatim (hb : BelowVerbatim eval eval') (hp : p.WellFormed)
    (hroot : p.root.HasLiterals) (ht : IsExpression t) (hliterals : t.LiteralsIn InOrder) :
    Gives (together StaysInOrder) (Common StaysInOrder (d + 1)) (Completion.All InOrder)
      (stepVerbatim p n eval t) (step p n eval' t) := by
  -- where nothing is added, the two evaluators take the same step
  have hself : Gives (together StaysInOrder) (Common StaysInOrder (d + 1)) (Completion.All InOrder)
      (step p n eval t) (step p n eval' t) := by
    refine hb.expression_step parallel_quoting (fun name arguments line line' hline hv => ?_) ht
      ⟨rfl, hliterals⟩
    exact hb.invoke parallel_quoting hp (sameFunctions_itself (literalsIn closed_quoting hroot))
      hline hv
  cases ht with
  | @operator op line left right hleft hright =>
    cases op with
    | add =>
      obtain ⟨-, -, -, hchildren⟩ := Itself.resembles ⟨rfl, hliterals⟩
      rcases hchildren with _ | ⟨hl, _ | ⟨hr, ⟨⟩⟩⟩
      -- the sum, with its operands in order
      have hsum : step p n eval' (.binary (.operator .add) left right line) = (do
          let a ← valueOf eval' left
          let b ← valueOf eval' right
          pure (.value (a.add b))) := by
        rw [step_operator, operation_binary, if_pos rfl]
        simp only [bind_assoc, pure_bind]
      rw [hsum]
      refine ((hb.sameValue hleft hl).valueOf parallel_quoting).bind fun a ha => ?_
      refine ((hb.sameValue hright hr).valueOf parallel_quoting).bind fun b hb => ?_
      obtain ⟨hclassified, hquoted⟩ := quoting_value_iff.1 ha
      obtain ⟨hclassified', hquoted'⟩ := quoting_value_iff.1 hb
      rw [← Value.add_eq_joined hclassified hclassified' hquoted hquoted']
      exact gives_pure (closed_quoting.add a b ha hb)
    | _ => exact hself
  | _ => exact hself

/-- **A statement.**  What is shown of a value in order are its characters without delimiters, so the
same is written; on every other form the two levels are the same. -/
theorem sameEffect_stepVerbatim (hb : BelowVerbatim eval eval') (ht : IsStatementOrList t)
    (hliterals : t.LiteralsIn InOrder) :
    SameEffect (together StaysInOrder) InOrder (Common StaysInOrder (d + 1)) (Common StaysInOrder d)
      (stepVerbatim p n eval t) (step p n eval' t) := by
  have hself : SameEffect (together StaysInOrder) InOrder (Common StaysInOrder (d + 1))
      (Common StaysInOrder d) (step p n eval t) (step p n eval' t) :=
    hb.statementOrList_step parallel_quoting Itself.resembles (Or.inl rfl) ht ⟨rfl, hliterals⟩
  cases ht with
  | statements hnodes => exact hself
  | statement ht =>
    cases ht with
    | @write line value hvalue =>
      obtain ⟨-, -, -, hchildren⟩ := Itself.resembles ⟨rfl, hliterals⟩
      rcases hchildren with _ | ⟨hv, ⟨⟩⟩
      rw [step_write]
      refine ((hb.sameValue hvalue hv).valueOf parallel_quoting).bind fun v hv => ?_
      rw [Value.observed_eq_verbatim (quoting_value_iff.1 hv).2]
      exact (parallel_quoting.writeLine rfl).bind_eq fun _ => sameEffect_normal
    | block h =>
      -- a block only hands its list on, in both
      cases h
      exact hself
    | _ => exact hself

end Levels

/-- With any fuel. -/
theorem below_evaluateVerbatim {p : Program} (hp : p.WellFormed) (hroot : p.root.HasLiterals)
    (n : Nat) : BelowVerbatim (evaluateVerbatim p n) (evaluate p n) := by
  refine parallel_quoting.levels Itself.resembles (fun _ => rfl)
    (fun _ => rfl) ?_ ?_ (Or.inl rfl)
  · rintro n m hb hnm t u d ht ⟨rfl, hliterals⟩
    cases hnm.eq_of_together
    exact gives_stepVerbatim hb hp hroot ht hliterals
  · rintro n m hb hnm t u d ht ⟨rfl, hliterals⟩
    cases hnm.eq_of_together
    exact sameEffect_stepVerbatim hb ht hliterals

/-- **The run by characters is the run.** -/
theorem runVerbatim_eq {p : Program} (hp : p.WellFormed) (hroot : p.root.HasLiterals) (fuel : Nat)
    {s : Session} (hs : s.Admitted quoting) : runVerbatim p fuel s = run p fuel s := by
  have hfunctions := sameFunctions_itself (literalsIn closed_quoting hroot)
  have hstart := (below_evaluateVerbatim hp hroot fuel).start parallel_quoting hp hfunctions
  exact (eq_of_simulates hstart (fun v t u hv => ⟨hv.2.1, hv.1⟩) hs).1

end Evaluation

/-! ## Programs -/

namespace Program

open Evaluation

/-- The session is what some number of runs of the program leave of `s`, whatever they end with. -/
inductive Reruns (p : Program) (s : Session) : Session → Prop where
  | none : Reruns p s s
  | run {t : Session} (h : Reruns p s t) (fuel : Nat) : Reruns p s (p.runIn fuel t).2

/-- From the session `s` on, every text that a run comes to is a literal or has no quote.

* It is so in every session that runs leave, in its records and in what has been reported of
  arguments and returned values, and in every session before and after a node of a run (the run that
  looks is the run itself, and would halt on a malformed node, which no run does).
* The run in which `+` and `write` go by the characters of values is the run itself. -/
structure KeepsQuotes (p : Program) (s : Session) : Prop where
  session : ∀ t, p.Reruns s t → t.Admitted quoting
  during : ∀ t, p.Reruns s t → ∀ fuel, runAdmitted quoting p fuel t = run p fuel t
  noMalformation : ∀ t fuel m, (p.runIn fuel t).1 ≠ .error (.malformed m)
  outcome : ∀ t, p.Reruns s t → ∀ fuel v, (p.runIn fuel t).1 = .ok v → quoting.value v = true
  verbatim : ∀ t, p.Reruns s t → ∀ fuel, runVerbatim p fuel t = run p fuel t

variable {source : String} {p : Program} {s t : Session} {input : List UInt8}

/-- However often the program is run, with whatever outcome. -/
theorem admitted_of_reruns {k : Admission} (hk : k.Closed) (hp : p.WellFormed)
    (hroot : p.root.HasLiterals) (hs : s.Admitted k) (h : p.Reruns s t) : t.Admitted k := by
  induction h with
  | none => exact hs
  | run h fuel ih => exact (admitted_runIn hk hp hroot ih fuel).1

/-- All of it follows from the session being admitted at the start. -/
theorem keepsQuotes (hp : p.WellFormed) (hroot : p.root.HasLiterals) (hs : s.Admitted quoting) :
    p.KeepsQuotes s := by
  have hadmitted : ∀ {t}, p.Reruns s t → t.Admitted quoting :=
    fun h => admitted_of_reruns closed_quoting hp hroot hs h
  constructor
  · exact fun t h => hadmitted h
  · exact fun t h fuel => (runAdmitted_eq closed_quoting hp hroot fuel (hadmitted h)).1
  · exact fun t fuel m => hp.runIn_ne_malformed fuel t m
  · exact fun t h fuel => (admitted_runIn closed_quoting hp hroot (hadmitted h) fuel).2
  · exact fun t h fuel => runVerbatim_eq hp hroot fuel (hadmitted h)

/-- **Quotes are delimiters.**  In the runs of a program on an input without quotes, with either
discipline,

* every text is a literal or has no quote, and reads as no number;
* what `+` makes of two such values, one of them a text, goes by what is shown of them;
* a literal is shown without its two delimiters, and a text without a quote as it is. -/
theorem keepsQuotes_of_parse (h : parse source = .ok p) (discipline : Discipline)
    (hinput : QuoteFree input) (output : Output) :
    p.KeepsQuotes (.start discipline input output) ∧
    (∀ s, quoting.value (.text s) = true ↔
      Number.read? s = none ∧ (IsLiteral s ∨ quoteMark ∉ s.toList)) ∧
    (∀ a b, quoting.value a = true → quoting.value b = true →
      a.number? = none ∨ b.number? = none → a.Joins b) ∧
    (∀ body, (Value.text (String.ofList (quoteMark :: (body ++ [quoteMark])))).observed =
      String.ofList body) ∧
    ∀ s, quoteMark ∉ s.toList → (Value.text s).observed = s := by
  have hroot : p.root.HasLiterals := isLiteral_of_parse h
  refine ⟨keepsQuotes (wellFormed_of_parse h) hroot ?_, ?_, ?_, ?_, ?_⟩
  · exact .start (quoting_input_iff.2 hinput) discipline output
  · intro s
    rw [quoting_value_iff, Value.isClassified_text, Value.isWellQuoted_text_iff]
  · intro a b ha hb
    obtain ⟨hclassified, hquoted⟩ := quoting_value_iff.1 ha
    obtain ⟨hclassified', hquoted'⟩ := quoting_value_iff.1 hb
    exact Value.joins_of_text hclassified hclassified' hquoted hquoted'
  · exact Value.observed_literal
  · exact fun s hs => Value.observed_text_of_not_startsQuoted (Value.startsQuoted_of_notMem hs)

/-- It holds of a program that joins what it reads with itself and with a literal. -/
theorem keepsQuotes_of_parse_joining :
    ∃ p, parse "fun main() \x7b read(x); y = x + \"!\"; write(y + x); write(y) \x7d" = .ok p ∧
      QuoteFree "a b\n".toUTF8.toList ∧
      p.KeepsQuotes (.start .stack "a b\n".toUTF8.toList .unlimited) := by
  have hok : (parse "fun main() \x7b read(x); y = x + \"!\"; write(y + x); write(y) \x7d").isOk := by
    decide +kernel
  have hinput : QuoteFree "a b\n".toUTF8.toList := by decide +kernel
  obtain ⟨p, hp⟩ := exists_of_isOk hok
  exact ⟨p, hp, hinput, (keepsQuotes_of_parse hp .stack hinput .unlimited).1⟩

end Program
end Scriptlet
