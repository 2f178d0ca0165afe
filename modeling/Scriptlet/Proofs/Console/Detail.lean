import Scriptlet.Console
import Scriptlet.Proofs.Console.Arguments
import Scriptlet.Proofs.Grammar.Delivery

/-!
Details only add to what a command prints.

Two runs are compared, one with details and one without.  Until the program has been read they do the
same.  Then the one with details reads the tokens of the source a second time, and all at once; that
cannot fail, because a text that is read as a program has tokens (`Program.reported_of_parse`).  What
follows does not depend on what has been printed.

Traces are left out: a command with details reads its tokens twice, and so it reports them twice.

What details print is written down by itself (`detailText`): a line for each token, the drawing, and a
line that sets off the output of the program.  The comparison then says of the two results that one is
the other with this text put in, between what has been printed before the entry is known and what the
program prints.  For an entry that cannot be read nothing is put in, because the details are printed
once the program is there.

Main statement: `detail_only_adds`.
-/

namespace Scriptlet
namespace Console

/-! ## Details -/

/-- The details of a program: its tokens, numbered from one, the drawing of its tree, and a line
that sets its output apart. -/
def detailText (ts : List Token) (p : Program) : String :=
  String.join (ts.mapIdx fun i t =>
    "token " ++ toString (i + 1) ++ " is " ++ t.kind.display ++ "\n") ++
    p.root.drawing ++ "\n" ++ banner

theorem tokenLines_eq (number : Nat) (ts : List Token) :
    tokenLines number ts = String.join (ts.mapIdx fun i t =>
      "token " ++ toString (i + number) ++ " is " ++ t.kind.display ++ "\n") := by
  induction ts generalizing number with
  | nil => rfl
  | cons t ts ih =>
    rw [tokenLines, List.mapIdx_cons, String.join_cons, ih, Nat.zero_add]
    simp only [Nat.add_assoc, Nat.add_comm 1 number]

/-- **The second reading does not fail.**  A program that has been read can be shown. -/
theorem details_of_parse {source : String} {p : Program} (h : Program.parse source = .ok p) :
    ∃ ts, tokens source = .ok ts ∧ details source p = .ok (detailText ts p) := by
  obtain ⟨ts, hts, -⟩ := Program.reported_of_parse h
  refine ⟨ts, hts, ?_⟩
  rw [details, hts, detailText, ← tokenLines_eq]
  rfl

/-! ## Two runs -/

/-- What a command has printed before it has its entry, the entry if it is a text, and the input
that is left to the program. -/
structure Opening where
  printed : String
  entry? : Option String
  rest : List UInt8

/-- The entry is given, or it is typed at the prompt. -/
def opening (o : Options) (input : List UInt8) : Opening :=
  match o.entry with
  | some entry => ⟨"", some entry, input⟩
  | none => ⟨prompt, entryOfLine? (splitLine input).1, (splitLine input).2⟩

/-- The text that the entry gives, if it can be read. -/
def Opening.source? (a : Opening) (read : String → Except FileFault (List UInt8)) : Option String :=
  a.entry?.bind fun entry => ((Entry.ofText entry).load read).toOption

/-- The output of a program that is run on what is left of the input. -/
def outputOf (fuel : Nat) (o : Options) (p : Program) (input : List UInt8) : ByteArray :=
  (p.runIn fuel (.start (o.discipline.getD .shared) input .unlimited)).2.output.written

variable {fuel : Nat} {read : String → Except FileFault (List UInt8)} {o : Options} {a : Opening}

/-- The second result is that of the same command with details.

* It has the same exit code and the same errors, and asks for input where the first does.
* Where there is no program to run, the same is printed.
* Otherwise the details are printed between what comes before the entry and the output of the
  program. -/
structure AddsDetails (fuel : Nat) (read : String → Except FileFault (List UInt8)) (o : Options)
    (a : Opening) (plain detailed : Result) : Prop where
  exitCode : detailed.exitCode = plain.exitCode
  stderr : detailed.stderr = plain.stderr
  starved : detailed.starved = plain.starved
  refused : (∀ source, a.source? read = some source → ∀ p, Program.parse source ≠ .ok p) →
    detailed.stdout = plain.stdout
  accepted : ∀ source p, a.source? read = some source → Program.parse source = .ok p →
    ∃ ts, tokens source = .ok ts ∧ details source p = .ok (detailText ts p) ∧
      plain.stdout = a.printed.toUTF8 ++ outputOf fuel o p a.rest ∧
      detailed.stdout = a.printed.toUTF8 ++ (detailText ts p).toUTF8 ++ outputOf fuel o p a.rest

/-- Nothing is run. -/
theorem AddsDetails.of_refused {r : Result}
    (h : ∀ source, a.source? read = some source → ∀ p, Program.parse source ≠ .ok p) :
    AddsDetails fuel read o a r r where
  exitCode := rfl
  stderr := rfl
  starved := rfl
  refused _ := rfl
  accepted source p hsource hp := absurd hp (h source hsource p)

theorem AddsDetails.asking {plain detailed : Result} (h : AddsDetails fuel read o a plain detailed)
    (asks : Bool) :
    AddsDetails fuel read o a { plain with starved := plain.starved || asks }
      { detailed with starved := detailed.starved || asks } where
  exitCode := h.exitCode
  stderr := h.stderr
  starved := congrArg (· || asks) h.starved
  refused := h.refused
  accepted := h.accepted

/-- The run of a program that has been read does not depend on what has been printed. -/
theorem AddsDetails.of_accepted {source : String} {p : Program} {shown : String} {plain detailed : Result}
    {code : Nat} {errors : String} {log log' : List Event} {starved : Bool}
    (hsource : a.source? read = some source) (hparse : Program.parse source = .ok p)
    (hshown : details source p = .ok shown)
    (hplain : plain =
      ⟨code, (a.printed ++ "").toUTF8 ++ outputOf fuel o p a.rest, errors, log, starved⟩)
    (hdetailed : detailed =
      ⟨code, (a.printed ++ shown).toUTF8 ++ outputOf fuel o p a.rest, errors, log', starved⟩) :
    AddsDetails fuel read o a plain detailed where
  exitCode := by rw [hplain, hdetailed]
  stderr := by rw [hplain, hdetailed]
  starved := by rw [hplain, hdetailed]
  refused hrefused := absurd hparse (hrefused source hsource p)
  accepted source' p' hsource' hparse' := by
    obtain rfl : source = source' := Option.some.inj (hsource.symm.trans hsource')
    obtain rfl : p = p' := Except.ok.inj (hparse.symm.trans hparse')
    obtain ⟨ts, hts, hdetails⟩ := details_of_parse hparse
    obtain rfl : shown = detailText ts p := Except.ok.inj (hshown.symm.trans hdetails)
    refine ⟨ts, hts, hdetails, ?_, ?_⟩
    · rw [hplain, String.append_empty]
    · rw [hdetailed]
      exact congrArg (· ++ _) String.toByteArray_append

theorem addsDetails_runEntry {entry : String} (hentry : a.entry? = some entry)
    (hoff : o.detail = false) :
    AddsDetails fuel read o a (runEntry fuel read o a.printed entry a.rest)
      (runEntry fuel read o.detailed a.printed entry a.rest) := by
  have hsource : a.source? read = ((Entry.ofText entry).load read).toOption := by
    rw [Opening.source?, hentry, Option.bind_some]
  -- the three ways to end: no text, no program, a run
  cases hload : (Entry.ofText entry).load read with
  | error e =>
    rw [hload] at hsource
    simp only [runEntry, hload]
    refine .of_refused fun source hs => ?_
    rw [hsource] at hs
    cases hs
  | ok source =>
    rw [hload] at hsource
    obtain ⟨log, hread⟩ : ∃ log, Program.readSource source = (Program.parse source, log) := ⟨_, rfl⟩
    cases hparse : Program.parse source with
    | error e =>
      rw [hparse] at hread
      simp only [runEntry, hload, hread]
      refine .of_refused fun source' hs p hp => ?_
      obtain rfl : source = source' := Option.some.inj (hsource.symm.trans hs)
      rw [hparse] at hp
      cases hp
    | ok p =>
      rw [hparse] at hread
      obtain ⟨ts, -, hdetails⟩ := details_of_parse hparse
      simp only [runEntry, hload, hread, hoff, Options.detailed, hdetails, Bool.false_eq_true, if_false,
        if_true]
      cases hrun : p.runIn fuel (.start (o.discipline.getD .shared) a.rest .unlimited) with
      | mk outcome s =>
        have houtput : s.output.written = outputOf fuel o p a.rest := by rw [outputOf, hrun]
        simp only [houtput]
        cases outcome with
        | ok v => exact .of_accepted hsource hparse hdetails rfl rfl
        | error halt => exact .of_accepted hsource hparse hdetails rfl rfl

/-- **Details only add.**  Take arguments that come to a command without details, and others that
come to the same command with details: they may be the same ones with a request for details among
the options.  The two commands have the same exit code and print the same errors.  Where the entry
cannot be read or is not a program, they print the same; otherwise the second prints the details
besides, behind the prompt if there is one and before the output of the program. -/
theorem detail_only_adds (fuel : Nat) (read : String → Except FileFault (List UInt8))
    {arguments : List String} {o : Options} (input : List UInt8)
    (h : Invocation.ofArguments arguments = .execute o) (hoff : o.detail = false) :
    (∀ others, Invocation.ofArguments others = .execute o.detailed →
      AddsDetails fuel read o (opening o input) (run fuel read arguments input)
        (run fuel read others input)) ∧
    ∀ before behind flag q, arguments = before ++ behind → flag = "-d" ∨ flag = "--detail" →
      Invocation.ofArguments before = .execute q → "--" ∉ before →
        Invocation.ofArguments (before ++ flag :: behind) = .execute o.detailed := by
  constructor
  · -- the two commands differ in the flag alone, with the entry in the arguments or in the input
    intro others hothers
    simp only [run, h, hothers, Options.detailed]
    cases hentry : o.entry with
    | some entry =>
      have hopening : opening o input = ⟨"", some entry, input⟩ := by rw [opening, hentry]
      rw [hopening]
      exact addsDetails_runEntry rfl hoff
    | none =>
      have hopening : opening o input =
          ⟨prompt, entryOfLine? (splitLine input).1, (splitLine input).2⟩ := by
        rw [opening, hentry]
      rw [hopening]
      simp only [runPrompted]
      cases hline : entryOfLine? (splitLine input).1 with
      | some entry => exact (addsDetails_runEntry rfl hoff).asking input.isEmpty
      | none =>
        refine (AddsDetails.of_refused ?_).asking input.isEmpty
        intro source hs
        cases hs
  · -- and the flag may stand anywhere
    rintro before behind flag q rfl hflag hbefore hdashes
    exact Invocation.ofArguments_insert hflag h hoff hbefore hdashes

theorem detail_only_adds_between :
    let o : Options := ⟨some "a.jif", false, some .stack⟩
    let read : String → Except FileFault (List UInt8) := fun _ => .ok "fun main() { write(1) }".toUTF8.toList
    Invocation.ofArguments ["--memory", "stack", "a.jif"] = .execute o ∧
      Invocation.ofArguments ["--memory", "stack", "-d", "a.jif"] = .execute o.detailed ∧
      AddsDetails 100 read o (opening o []) (run 100 read ["--memory", "stack", "a.jif"] [])
        (run 100 read ["--memory", "stack", "-d", "a.jif"] []) := by
  intro o read
  have h : Invocation.ofArguments ["--memory", "stack", "a.jif"] = .execute o := by decide +kernel
  have hbefore : Invocation.ofArguments ["--memory", "stack"] = .execute ⟨none, false, some .stack⟩ := by
    decide +kernel
  obtain ⟨hadds, hinsert⟩ := detail_only_adds 100 read [] h rfl
  have hothers := hinsert ["--memory", "stack"] ["a.jif"] "-d" _ rfl (Or.inl rfl) hbefore (by decide)
  exact ⟨h, hothers, hadds _ hothers⟩

end Console
end Scriptlet
