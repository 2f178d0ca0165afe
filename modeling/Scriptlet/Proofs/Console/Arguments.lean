import Scriptlet.Console.Arguments

/-!
Details asked for besides.

A request for details does not get in the way of other arguments: none looks at it, and a second one
is refused.  So arguments that come to a command without details come to the same command with details
if the request is made before (`Options.read_detailed`), and since arguments are read one after the
other, it can be made wherever an option may stand (`Invocation.ofArguments_insert`).

`Options` is what the arguments have set so far, and `detailed` sets the request in it, whether it was
made before or not.  Reading goes argument by argument: an argument is an entry, a group of short
options, a long option, or the value that an option before it waits for.  For each of these the same
is shown.  If it is read without misuse and what it leaves has no request for details, then there was
none before, and with a request it is read in the same way and leaves the same with the request.  The
hypothesis that no request is left excludes the one case in which two requests meet.

The last part is about where the request is put in.  The arguments before it are read first, and none
of them may be waiting for a value, since then the request would be taken for that value.
-/

namespace Scriptlet

/-- The same, with details. -/
def Options.detailed (o : Options) : Options := { o with detail := true }

namespace Options

variable {o q : Options}

/-- What is left of a group of short options or of a long option, if it is no misuse. -/
def Cluster.options? : Cluster → Option Options
  | .done o | .awaitsDiscipline o => some o
  | .help | .misuse => Option.none

/-- The same outcome with a request for details in it. -/
def Cluster.detailed : Cluster → Cluster
  | .done o => .done o.detailed
  | .awaitsDiscipline o => .awaitsDiscipline o.detailed
  | .help => .help
  | .misuse => .misuse

/-! ## Single options -/

/-- Setting the entry does not look at the request. -/
@[simp] theorem setEntry_detailed (entry : String) :
    o.detailed.setEntry entry = (o.setEntry entry).map detailed := by
  unfold setEntry
  cases h : o.entry <;> simp [detailed, h]

@[simp] theorem setDiscipline_detailed (value : List Char) :
    o.detailed.setDiscipline value = (o.setDiscipline value).map detailed := by
  unfold setDiscipline
  cases h : o.discipline <;> simp [detailed, h]
  rfl

/-- The entry leaves the request as it is. -/
theorem detail_of_setEntry {entry : String} (h : o.setEntry entry = some q) :
    q.detail = o.detail := by
  unfold setEntry at h
  split at h
  · cases h
  · cases h
    rfl

theorem detail_of_setDiscipline {value : List Char} (h : o.setDiscipline value = some q) :
    q.detail = o.detail := by
  unfold setDiscipline at h
  split at h
  · cases h
  · obtain ⟨d, -, rfl⟩ := Option.map_eq_some_iff.1 h
    rfl

theorem detail_of_setDetail (h : o.setDetail = some q) : q.detail = true := by
  unfold setDetail at h
  split at h
  · cases h
  · cases h
    rfl

/-! ## Options written together and long options

A group is read letter by letter; a long option is one of a few words. -/

/-- A group that leaves options without details is read in the same way with details. -/
theorem cluster_detailed (hq : q.detail = false) {option : List Char}
    (h : (o.cluster option).options? = some q) :
    o.detail = false ∧ o.detailed.cluster option = (o.cluster option).detailed := by
  fun_induction cluster o option with
  | case1 o =>
    obtain rfl := Option.some.inj h
    exact ⟨hq, rfl⟩
  | case2 o rest p hp ih =>
    -- a request for details stays
    have hdetail := (ih h).1
    rw [detail_of_setDetail hp] at hdetail
    cases hdetail
  | case3 => cases h
  | case4 => cases h
  | case5 o =>
    obtain rfl := Option.some.inj h
    exact ⟨hq, rfl⟩
  | case6 o value hvalue _ p hp =>
    obtain rfl := Option.some.inj h
    refine ⟨detail_of_setDiscipline hp ▸ hq, ?_⟩
    rw [cluster]
    · rw [setDiscipline_detailed, hp]
      rfl
    · exact hvalue
  | case7 => cases h
  | case8 => cases h

theorem long_detailed (hq : q.detail = false) {option : List Char}
    (h : (o.long option).options? = some q) :
    o.detail = false ∧ o.detailed.long option = (o.long option).detailed := by
  unfold long at h ⊢
  cases hvalue : option.dropWhile (· ≠ '=') with
  | nil =>
    simp only [hvalue] at h ⊢
    split at h
    · -- a request for details stays
      cases hset : o.setDetail with
      | none =>
        rw [hset] at h
        cases h
      | some p =>
        rw [hset] at h
        obtain rfl := Option.some.inj h
        exact absurd hq (by rw [detail_of_setDetail hset]; decide)
    split at h
    · next hdetail hmemory =>
      obtain rfl := Option.some.inj h
      rw [if_neg hdetail, if_pos hmemory, if_neg hdetail, if_pos hmemory]
      exact ⟨hq, rfl⟩
    split at h <;> cases h
  | cons c value =>
    simp only [hvalue, setDiscipline_detailed] at h ⊢
    split at h
    · next hmemory =>
      rw [if_pos hmemory, if_pos hmemory]
      cases hset : o.setDiscipline value with
      | none =>
        rw [hset] at h
        cases h
      | some p =>
        rw [hset] at h
        obtain rfl := Option.some.inj h
        exact ⟨detail_of_setDiscipline hset ▸ hq, rfl⟩
    · cases h

/-! ## Arguments -/

/-- The options in an argument, if it is no operand. -/
def part? (o : Options) (argument : String) : Option Cluster :=
  match argument.toList with
  | '-' :: '-' :: option => some (long o option)
  | '-' :: c :: cs => some (cluster o (c :: cs))
  | _ => Option.none

/-- What is no option is none with a request, either. -/
theorem part?_detailed_of_none {argument : String} (h : o.part? argument = Option.none) :
    o.detailed.part? argument = Option.none := by
  unfold part? at h ⊢
  split at h
  · cases h
  · cases h
  · rfl

/-- The same for an argument that is a group or a long option. -/
theorem part?_detailed (hq : q.detail = false) {argument : String} {r : Cluster}
    (h : o.part? argument = some r) (hr : r.options? = some q) :
    o.detail = false ∧ o.detailed.part? argument = some r.detailed := by
  unfold part? at h ⊢
  split at h
  · obtain rfl := Option.some.inj h
    obtain ⟨hdetail, hlong⟩ := long_detailed hq hr
    exact ⟨hdetail, congrArg some hlong⟩
  · obtain rfl := Option.some.inj h
    obtain ⟨hdetail, hcluster⟩ := cluster_detailed hq hr
    exact ⟨hdetail, congrArg some hcluster⟩
  · cases h

variable {argument value : String} {rest : List String}

/-- An argument that does not end the options is an operand or has options in it. -/
theorem read_cons (hne : argument ≠ "--") :
    o.read (argument :: rest) =
      match o.part? argument with
      | Option.none =>
        match o.setEntry argument with
        | some o => o.read rest
        | Option.none => .misuse
      | some (.done o) => o.read rest
      | some .help => .help
      | some .misuse => .misuse
      | some (.awaitsDiscipline o) =>
        match rest with
        | [] => .misuse
        | value :: rest =>
          match o.setDiscipline value.toList with
          | some o => o.read rest
          | Option.none => .misuse := by
  rw [read, if_neg hne]
  rfl

/-- An argument that is no option is the entry. -/
theorem read_of_entry (hne : argument ≠ "--") (hpart : o.part? argument = Option.none)
    (hset : o.setEntry argument = some q) : o.read (argument :: rest) = q.read rest := by
  simp only [read_cons hne, hpart, hset]

theorem read_of_done (hne : argument ≠ "--") (hpart : o.part? argument = some (.done q)) :
    o.read (argument :: rest) = q.read rest := by
  simp only [read_cons hne, hpart]

/-- An option that waits for a value has it from the next argument. -/
theorem read_of_awaits {p : Options} (hne : argument ≠ "--")
    (hpart : o.part? argument = some (.awaitsDiscipline p))
    (hset : p.setDiscipline value.toList = some q) :
    o.read (argument :: value :: rest) = q.read rest := by
  simp only [read_cons hne, hpart, hset]

/-- Operands alone are read in the same way with details. -/
theorem operands_detailed (hq : q.detail = false) {arguments : List String}
    (h : o.operands arguments = .execute q) :
    o.detail = false ∧ o.detailed.operands arguments = .execute q.detailed := by
  induction arguments generalizing o with
  | nil =>
    cases h
    exact ⟨hq, rfl⟩
  | cons argument rest ih =>
    rw [operands] at h ⊢
    split at h
    · next p hp =>
      obtain ⟨hdetail, hrest⟩ := ih h
      rw [setEntry_detailed, hp]
      exact ⟨detail_of_setEntry hp ▸ hdetail, hrest⟩
    · cases h

/-- **Arguments that come to a command without details** come to the same with details if these have
been asked for. -/
theorem read_detailed (hq : q.detail = false) {arguments : List String}
    (h : o.read arguments = .execute q) :
    o.detail = false ∧ o.detailed.read arguments = .execute q.detailed := by
  fun_induction read o arguments with
  | case1 o =>
    cases h
    exact ⟨hq, rfl⟩
  | case2 o rest =>
    rw [read, if_pos rfl]
    exact operands_detailed hq h
  -- an operand, an option that is complete, and one that takes the next argument
  | case3 o argument rest hne _ hpart p hset ih =>
    obtain ⟨hdetail, hrest⟩ := ih h
    refine ⟨detail_of_setEntry hset ▸ hdetail, ?_⟩
    rw [read_of_entry hne (part?_detailed_of_none hpart) (by rw [setEntry_detailed, hset]; rfl), hrest]
  | case5 o argument rest hne _ p hpart ih =>
    obtain ⟨hdetail, hrest⟩ := ih h
    obtain ⟨ho, hsame⟩ := part?_detailed hdetail hpart rfl
    refine ⟨ho, ?_⟩
    rw [read_of_done hne hsame, hrest]
  | case9 o argument hne _ p hpart value rest r hset ih =>
    obtain ⟨hdetail, hrest⟩ := ih h
    obtain ⟨ho, hsame⟩ := part?_detailed (detail_of_setDiscipline hset ▸ hdetail) hpart rfl
    refine ⟨ho, ?_⟩
    rw [read_of_awaits hne hsame (by rw [setDiscipline_detailed, hset]; rfl), hrest]
  -- the others do not end in a command to execute
  | case4 => cases h
  | case6 => cases h
  | case7 => cases h
  | case8 => cases h
  | case10 => cases h

/-- Arguments are read one after the other. -/
theorem read_append {before : List String} (h : o.read before = .execute q) (hdashes : "--" ∉ before)
    (behind : List String) : o.read (before ++ behind) = q.read behind := by
  fun_induction read o before with
  | case1 o =>
    cases h
    rfl
  | case2 o rest => exact absurd List.mem_cons_self hdashes
  | case3 o argument rest hne _ hpart p hset ih =>
    rw [List.cons_append, read_of_entry hne hpart hset, ih h fun hmem => hdashes (.tail _ hmem)]
  | case5 o argument rest hne _ p hpart ih =>
    rw [List.cons_append, read_of_done hne hpart, ih h fun hmem => hdashes (.tail _ hmem)]
  | case9 o argument hne _ p hpart value rest r hset ih =>
    rw [List.cons_append, List.cons_append, read_of_awaits hne hpart hset,
      ih h fun hmem => hdashes (.tail _ (.tail _ hmem))]
  | case4 => cases h
  | case6 => cases h
  | case7 => cases h
  | case8 => cases h
  | case10 => cases h

end Options

/-- **Details may be asked for wherever an option may stand**: behind arguments that are complete
and have not ended the options. -/
theorem Invocation.ofArguments_insert {o q : Options} {before behind : List String} {flag : String}
    (hflag : flag = "-d" ∨ flag = "--detail") (h : ofArguments (before ++ behind) = .execute o)
    (hoff : o.detail = false) (hbefore : ofArguments before = .execute q) (hdashes : "--" ∉ before) :
    ofArguments (before ++ flag :: behind) = .execute o.detailed := by
  unfold ofArguments at h hbefore ⊢
  rw [Options.read_append hbefore hdashes] at h ⊢
  obtain ⟨hq, hbehind⟩ := Options.read_detailed hoff h
  have hdetail : q.setDetail = some q.detailed := if_neg (by simp [hq])
  have hpart : q.part? flag = some (.done q.detailed) := by
    rcases hflag with rfl | rfl
    · show some (q.cluster ['d']) = _
      simp [Options.cluster, hdetail]
    · show some (q.long "detail".toList) = _
      simp [Options.long, hdetail]
  have hne : flag ≠ "--" := by
    rcases hflag with rfl | rfl <;> decide
  rw [Options.read_of_done hne hpart, hbehind]

end Scriptlet
