import Scriptlet.Proofs.Token.Place
import Scriptlet.Proofs.Token.Segmentation

/-!
The lines of tokens and of lexical errors are those of the source.

A cursor counts the line breaks of the text that it reads, and that text has no comments any more.
What ties it to the source is the invariant `Cursor.Stands`: the places outside comments are those
that the cursor has passed and those that are ahead of it, and its line counts the line breaks among
the first.

What one step does is said once (`Cursor.Moves`): it passes a gap and the characters of a token.  So
the line of the token is that of its first place, because no line break of the token is counted, and
the line of the cursor is that of its last place, because all of them are, and no token ends in one
(`Fits.getLast?_ne_lineBreak`).

Two cursors are not compared here, and nothing is said of how many steps have been made.  The
invariant is about one cursor at a time: `Reached` says how it can have come there, and the induction
on that is the whole of the argument (`Reached.stands`).

A lexical error has the line of the place where its misfit begins, behind the gap, which need not be
the line of the cursor.  The end marker has the line of the end of the text, which is the last line of
the source.

Main statement: `Cursor.lines_exact`.
-/

namespace Scriptlet

/-! ## Lexemes -/

theorem Fits.ne_nil {text rest : List Char} {kind : Token.Kind} (h : Fits text kind rest) :
    text ≠ [] := by
  cases h <;> exact List.cons_ne_nil _ _

/-- A line break may stand in a literal, but no token ends in one. -/
theorem Fits.getLast?_ne_lineBreak {text rest : List Char} {kind : Token.Kind}
    (h : Fits text kind rest) : text.getLast? ≠ some '\n' := by
  have hword : ∀ {cs : List Char}, (∀ d ∈ cs, inWord d = true) → '\n' ∉ cs := fun hcs hmem =>
    absurd (hcs '\n' hmem) (by decide)
  intro hlast
  have hmem : '\n' ∈ text := List.mem_of_getLast? hlast
  -- a line break ends words and numerals; a literal may contain it, but does not end with it
  cases h with
  | numeral hdigit hcs =>
    rcases List.mem_cons.1 hmem with rfl | hmem
    · exact absurd hdigit (by decide)
    · exact hword hcs hmem
  | word hletter hcs =>
    rcases List.mem_cons.1 hmem with rfl | hmem
    · exact absurd hletter (by decide)
    · exact hword hcs hmem
  | literal =>
    rw [← List.cons_append, List.getLast?_concat] at hlast
    exact absurd hlast (by decide)
  | symbol hdigit hletter hquote hblank =>
    obtain rfl := List.mem_singleton.1 hmem
    exact absurd hblank (by decide)

theorem Misfit.ne_nil {s : List Char} {cause : Cause} (h : Misfit s cause) : s ≠ [] := by
  cases h <;> exact List.cons_ne_nil _ _

namespace Cursor

/-! ## One step

All that is used of a step later on. -/

/-- A step from `c` to `d` passes a gap and the characters of a token, or at the end of the text a gap
alone. -/
structure Moves (c d : Cursor) (gap text : List Char) : Prop where
  rest : c.rest = gap ++ (text ++ d.rest)
  isGap : ∀ x ∈ gap, isGap x = true
  current : d.current.line = c.line + gap.count '\n'
  line : d.line = c.line + (gap ++ text).count '\n'
  token : d.current.kind = .finish ∧ text = [] ∧ d.rest = [] ∨ Fits text d.current.kind d.rest

variable {source : String} {c d : Cursor} {e : Error}

/-- **What a step does.** -/
theorem moves_of_advance (h : c.advance = .ok d) : ∃ gap text, Moves c d gap text := by
  unfold advance at h
  cases hscan : scan c.line c.rest with
  | error e =>
    rw [hscan] at h
    cases h
  | ok l =>
    rw [hscan] at h
    cases h
    have hline := line_of_scan hscan
    obtain ⟨gap, hgap, ⟨hfinish, hs⟩ | ⟨hcurrent, text, hs, hfits⟩⟩ := fits_of_scan hscan
    · -- at the end only a gap is left
      have hrest := rest_eq_nil_of_scan hscan hfinish
      have hmarker : l.token.line = l.line := by rw [eq_of_scan_finish hscan hfinish]
      rw [hs, hrest, List.count_nil, Nat.add_zero] at hline
      refine ⟨gap, [], ?_, hgap, hmarker.trans hline, ?_, Or.inl ⟨hfinish, rfl, hrest⟩⟩
      · rw [hs, hrest, List.append_nil, List.append_nil]
      · rwa [List.append_nil]
    · refine ⟨gap, text, hs, hgap, hcurrent, ?_, Or.inr hfits⟩
      rw [hs, ← List.append_assoc, List.count_append] at hline
      show l.line = _
      omega

/-- Where no step is made there is a misfit, perhaps behind a gap. -/
theorem misfit_of_advance (h : c.advance = .error e) :
    ∃ gap rest cause, c.rest = gap ++ rest ∧ (∀ x ∈ gap, isGap x = true) ∧ Misfit rest cause ∧
      e = .onLine (c.line + gap.count '\n') cause := by
  unfold advance at h
  cases hscan : scan c.line c.rest with
  | ok l =>
    rw [hscan] at h
    cases h
  | error e =>
    rw [hscan] at h
    cases h
    exact misfit_of_scan hscan

/-! ## Where a cursor stands

The invariant: what has been passed and what is ahead are the places outside comments. -/

/-- The cursor has come by steps from before the first token of the source. -/
inductive Reached (source : String) : Cursor → Prop where
  | before : Reached source (before source)
  | advance {c d : Cursor} (h : Reached source c) (hstep : c.advance = .ok d) : Reached source d

/-- The places of the source that the cursor has before it: the last ones outside comments, as many as
characters are left to read. -/
def ahead (source : String) (c : Cursor) : List Nat :=
  (outside source.toList).drop ((outside source.toList).length - c.rest.length)

/-- The cursor has passed these places of the source. -/
structure Stands (source : String) (passed : List Nat) (c : Cursor) : Prop where
  places : outside source.toList = passed ++ c.ahead source
  rest : charsAt source.toList (c.ahead source) = c.rest
  line : c.line = 1 + (charsAt source.toList passed).count '\n'
  current : c.current.line ≤ c.line

/-- What is left to read says which places are ahead. -/
theorem ahead_eq {passed places : List Nat} (h : outside source.toList = passed ++ places)
    (hrest : charsAt source.toList places = c.rest) : c.ahead source = places := by
  have hlength : c.rest.length = places.length := by
    rw [← hrest, length_charsAt fun i hi => h ▸ List.mem_append_right passed hi]
  rw [ahead, h, hlength, List.length_append, Nat.add_sub_cancel, List.drop_left]

/-- A cursor that has read nothing has passed nothing. -/
theorem stands_before (source : String) : Stands source [] (before source) := by
  have hahead : (before source).ahead source = outside source.toList :=
    ahead_eq (List.nil_append _).symm (charsAt_outside source.toList)
  refine ⟨hahead.symm, ?_, rfl, Nat.le_refl 1⟩
  rw [hahead, charsAt_outside]
  rfl

/-- **One step** passes the places of what is read. -/
theorem Stands.of_moves {passed : List Nat} {gap text : List Char} (h : Stands source passed c)
    (hmoves : Moves c d gap text) :
    ∃ skipped here, c.ahead source = skipped ++ (here ++ d.ahead source) ∧
      charsAt source.toList skipped = gap ∧ charsAt source.toList here = text ∧
        Stands source (passed ++ (skipped ++ here)) d := by
  obtain ⟨skipped, behind, hplaces, hskipped, hbehind⟩ :=
    List.filterMap_eq_append_iff.1 (h.rest.trans hmoves.rest)
  obtain ⟨here, after, rfl, hhere, hafter⟩ := List.filterMap_eq_append_iff.1 hbehind
  have houtside : outside source.toList = passed ++ (skipped ++ here) ++ after := by
    rw [h.places, hplaces]
    simp only [List.append_assoc]
  have hahead : d.ahead source = after := ahead_eq houtside hafter
  have hread : charsAt source.toList (passed ++ (skipped ++ here)) =
      charsAt source.toList passed ++ (gap ++ text) := by
    rw [charsAt_append, charsAt_append, ← hskipped, ← hhere]
    rfl
  refine ⟨skipped, here, hahead ▸ hplaces, hskipped, hhere, hahead ▸ houtside, hahead ▸ hafter, ?_, ?_⟩
  · rw [hread, hmoves.line, h.line, Nat.add_assoc, ← List.count_append]
  · rw [hmoves.current, hmoves.line, List.count_append]
    omega

/-- **Every run.**  Wherever a cursor has come to, it stands there in the source. -/
theorem Reached.stands (h : Reached source c) : ∃ passed, Stands source passed c := by
  induction h with
  | before => exact ⟨[], stands_before source⟩
  | advance _ hstep ih =>
    obtain ⟨passed, hstands⟩ := ih
    obtain ⟨gap, text, hmoves⟩ := moves_of_advance hstep
    obtain ⟨skipped, here, -, -, -, hnext⟩ := hstands.of_moves hmoves
    exact ⟨_, hnext⟩

/-! ## Lines -/

/-- The line of a place is found where the cursor stands, by counting what it passes up to there. -/
theorem Stands.lineOf_eq {passed before after : List Nat} {i : Nat} (h : Stands source passed c)
    (hahead : c.ahead source = before ++ i :: after) :
    lineOf source.toList i = c.line + (charsAt source.toList before).count '\n' := by
  have houtside : outside source.toList = (passed ++ before) ++ i :: after := by
    rw [h.places, hahead, List.append_assoc]
  rw [Scriptlet.lineOf_eq houtside, h.line, charsAt_append, List.count_append, Nat.add_assoc]

/-- The number of the last line is one above that of the line breaks. -/
theorem Stands.line_add_count {passed : List Nat} (h : Stands source passed c) :
    c.line + c.rest.count '\n' = 1 + source.toList.count '\n' := by
  have hread : eraseComments source.toList = charsAt source.toList passed ++ c.rest := by
    rw [← charsAt_outside, h.places, charsAt_append, h.rest]
  rw [h.line, ← count_eraseCommentsFrom false source.toList, ← eraseComments, hread,
    List.count_append, Nat.add_assoc]

/-- The step from `c` to `d` passes a gap and reads the token that stands at the places `here`.  The
line of the token is that of the first of them, and the line of the cursor behind it is that of the
last. -/
structure Reads (source : String) (c d : Cursor) (gap here : List Nat) : Prop where
  ahead : c.ahead source = gap ++ (here ++ d.ahead source)
  isGap : ∀ x ∈ charsAt source.toList gap, isGap x = true
  fits : Fits (charsAt source.toList here) d.current.kind d.rest
  first : ∃ i ∈ here.head?, d.current.line = lineOf source.toList i
  last : ∃ i ∈ here.getLast?, d.line = lineOf source.toList i

/-- The characters at the places ahead are no token, for the given reason, and the error has the
line of the first of them, behind a gap. -/
structure Stops (source : String) (c : Cursor) (e : Error) (gap here : List Nat) (cause : Cause) :
    Prop where
  ahead : c.ahead source = gap ++ here
  isGap : ∀ x ∈ charsAt source.toList gap, isGap x = true
  misfit : Misfit (charsAt source.toList here) cause
  first : ∃ i ∈ here.head?, e = .onLine (lineOf source.toList i) cause

/-- The lines at the cursor are exact.  At the end marker nothing but a gap was left, and its line and
that of the cursor are the last one. -/
structure Exact (source : String) (c : Cursor) : Prop where
  rest : charsAt source.toList (c.ahead source) = c.rest
  token : ∀ d, c.advance = .ok d → d.current.kind ≠ .finish → ∃ gap here, Reads source c d gap here
  finish : ∀ d, c.advance = .ok d → d.current.kind = .finish →
    (∀ x ∈ c.rest, isGap x = true) ∧ d.current.line = 1 + source.toList.count '\n' ∧
      d.line = 1 + source.toList.count '\n'
  fault : ∀ e, c.advance = .error e → ∃ gap here cause, Stops source c e gap here cause
  ordered : ∀ d, c.advance = .ok d → c.current.line ≤ d.current.line

/-- A step to a token, from where the cursor stands. -/
theorem Stands.reads {passed : List Nat} (h : Stands source passed c) (hstep : c.advance = .ok d)
    (hkind : d.current.kind ≠ .finish) : ∃ gap here, Reads source c d gap here := by
  obtain ⟨_, _, hmoves⟩ := moves_of_advance hstep
  obtain ⟨gap, here, hahead, rfl, rfl, -⟩ := h.of_moves hmoves
  have hfits : Fits (charsAt source.toList here) d.current.kind d.rest :=
    hmoves.token.resolve_left fun hfinish => hkind hfinish.1
  have hhere : here ≠ [] := by
    rintro rfl
    exact hfits.ne_nil rfl
  refine ⟨gap, here, hahead, hmoves.isGap, hfits, ?_, ?_⟩
  · obtain ⟨first, more, rfl⟩ := List.exists_cons_of_ne_nil hhere
    exact ⟨first, rfl, by rw [h.lineOf_eq hahead, hmoves.current]⟩
  · obtain ⟨front, last, rfl⟩ := (List.eq_nil_or_concat' here).resolve_left hhere
    have hplace : c.ahead source = (gap ++ front) ++ last :: d.ahead source := by
      rw [hahead]
      simp only [List.append_assoc, List.singleton_append]
    -- the last character is counted with what is read, and it is no line break
    have hmem : last ∈ outside source.toList := by
      rw [h.places, hplace]
      simp
    obtain ⟨x, hx⟩ := exists_charsAt_singleton hmem
    have hbreak : x ≠ '\n' := by
      rintro rfl
      rw [charsAt_append, hx] at hfits
      exact hfits.getLast?_ne_lineBreak List.getLast?_concat
    refine ⟨last, List.getLast?_concat, ?_⟩
    rw [h.lineOf_eq hplace, hmoves.line, charsAt_append, charsAt_append, hx]
    simp [List.count_append, hbreak]

/-- A step that fails, from where the cursor stands. -/
theorem Stands.stops {passed : List Nat} (h : Stands source passed c) (hstep : c.advance = .error e) :
    ∃ gap here cause, Stops source c e gap here cause := by
  obtain ⟨_, _, cause, hrest, hgap, hmisfit, rfl⟩ := misfit_of_advance hstep
  obtain ⟨gap, here, hahead, rfl, rfl⟩ := List.filterMap_eq_append_iff.1 (h.rest.trans hrest)
  refine ⟨gap, here, cause, hahead, hgap, hmisfit, ?_⟩
  have hhere : here ≠ [] := by
    rintro rfl
    exact hmisfit.ne_nil rfl
  obtain ⟨first, more, rfl⟩ := List.exists_cons_of_ne_nil hhere
  refine ⟨first, rfl, ?_⟩
  rw [h.lineOf_eq hahead]
  rfl

theorem Stands.exact {passed : List Nat} (h : Stands source passed c) : Exact source c where
  rest := h.rest
  token _ hstep hkind := h.reads hstep hkind
  finish d hstep hkind := by
    obtain ⟨gap, text, hmoves⟩ := moves_of_advance hstep
    obtain ⟨-, rfl, hrest⟩ := hmoves.token.resolve_right fun hfits => hfits.ne_finish hkind
    have hgap : c.rest = gap := by
      rw [hmoves.rest, hrest, List.append_nil, List.append_nil]
    rw [hmoves.current, hmoves.line, List.append_nil, ← h.line_add_count, hgap]
    exact ⟨hmoves.isGap, rfl, rfl⟩
  fault _ hstep := h.stops hstep
  ordered d hstep := by
    obtain ⟨gap, text, hmoves⟩ := moves_of_advance hstep
    rw [hmoves.current]
    exact Nat.le_trans h.current (Nat.le_add_right _ _)

/-! ## All tokens -/

/-- Whatever is read of a text is read by a step of a cursor that has come to it. -/
theorem reached_of_ofText (line : Nat) (text : List Char) :
    ∀ c, Reached source c → c.line = line → c.rest = text →
      (∀ t ∈ (TokenStream.ofText line text).delivered,
        ∃ a b, Reached source a ∧ a.advance = .ok b ∧ b.current = t) ∧
      ∀ e, (TokenStream.ofText line text).ending = .error e →
        ∃ a, Reached source a ∧ a.advance = .error e := by
  -- the recursion is that of the stream, and the cursor stands where its argument begins
  fun_induction TokenStream.ofText line text with
  | case1 line text e he =>
    intro c h hline hrest
    have hstep : c.advance = .error e := by
      rw [Cursor.advance, hline, hrest, he]
    refine ⟨fun t ht => absurd ht List.not_mem_nil, fun e' he' => ?_⟩
    cases he'
    exact ⟨c, h, hstep⟩
  | case2 line text l hl hf =>
    intro c h hline hrest
    have hstep : c.advance = .ok ⟨l.rest, l.line, l.token⟩ := by
      rw [Cursor.advance, hline, hrest, hl]
    refine ⟨fun t ht => ?_, fun e' he' => by cases he'⟩
    obtain rfl := List.mem_singleton.1 ht
    exact ⟨c, _, h, hstep, rfl⟩
  | case3 line text l hl hf following ih =>
    intro c h hline hrest
    have hstep : c.advance = .ok ⟨l.rest, l.line, l.token⟩ := by
      rw [Cursor.advance, hline, hrest, hl]
    obtain ⟨htokens, hending⟩ := ih _ (h.advance hstep) rfl rfl
    refine ⟨fun t ht => ?_, hending⟩
    rcases List.mem_cons.1 (TokenStream.delivered_cons .. ▸ ht) with rfl | hmem
    · exact ⟨c, _, h, hstep, rfl⟩
    · exact htokens t hmem

/-- **Lines are exact in the source.**  The text that is read consists of the characters of the
source outside comments.  Wherever a cursor has come to in it, the lines are exact there, those of
the token that is read next, of the cursor behind it, of the end marker and of an error.  All tokens
of the source are read in this way, and so is the error in which they end; and their lines never
decrease. -/
theorem lines_exact (source : String) :
    charsAt source.toList (outside source.toList) = eraseComments source.toList ∧
    (∀ c, Reached source c → Exact source c) ∧
    (∀ t ∈ (TokenStream.ofSource source).delivered,
      ∃ c d, Reached source c ∧ c.advance = .ok d ∧ d.current = t) ∧
    (∀ e, tokens source = .error e → ∃ c, Reached source c ∧ c.advance = .error e) ∧
    (TokenStream.ofSource source).delivered.Pairwise (·.line ≤ ·.line) := by
  obtain ⟨htokens, hending⟩ := reached_of_ofText 1 _ _ (Reached.before : Reached source _) rfl rfl
  refine ⟨charsAt_outside _, fun c hc => ?_, htokens, fun e he => ?_, TokenStream.pairwise_line 1 _⟩
  · obtain ⟨passed, hstands⟩ := hc.stands
    exact hstands.exact
  · exact hending e (tokens_eq_error_iff.1 he)

end Cursor
end Scriptlet
