import Scriptlet.Proofs.Token.Lexemes

/-!
Texts that are cut into lexemes.

`Segmented line s ts rest` says that the text `s`, which starts on the line `line` and goes on with
`rest`, consists of lexemes with gaps before, between and behind them, and that `ts` are its tokens,
each with the line of its first character.  It is said without a word about reading: every character
belongs to one gap or to one lexeme.

The token stream goes through a text in this way.  What is segmented is read
(`Segmented.ofText`), and a text is either segmented to its end or up to a misfit
(`segments_ofText`), by induction on the stream.

There are two directions, and they are not symmetric.  From a segmentation to the stream the induction
is on the segmentation: each lexeme is read as its token, so the stream has one more in front.  From
the stream to a segmentation it is on the length of the text, since scanning is; what has been scanned
is a gap and a lexeme, and the rest is shorter.  That a text is segmented in one way only is then a
consequence, because it has one stream.

The lines are counted along with the segmentation, and a token has the line of its first character.
Hence lines never decrease, and lie between the first line of the text and its last.

Main statement: the tokens of a source text are those of its segmentation, and where it has none, the
error is that of the first misfit (`tokens_iff_segmented`).
-/

namespace Scriptlet

/-- The text is cut into gaps and lexemes. -/
inductive Segmented : Nat → List Char → List Token → List Char → Prop where
  | gap {line : Nat} {gap rest : List Char} (hgap : ∀ c ∈ gap, isGap c = true) :
      Segmented line gap [] rest
  | lexeme {line : Nat} {gap text more rest : List Char} {kind : Token.Kind} {ts : List Token}
      (hgap : ∀ c ∈ gap, isGap c = true) (hfits : Fits text kind (more ++ rest))
      (hmore : Segmented (line + (gap ++ text).count '\n') more ts rest) :
      Segmented line (gap ++ (text ++ more)) (⟨kind, line + gap.count '\n'⟩ :: ts) rest

namespace TokenStream

/-- A text is read as it is scanned. -/
theorem ofText_congr {line line' : Nat} {s s' : List Char} (h : scan line s = scan line' s') :
    ofText line s = ofText line' s' := by
  cases hs : scan line' s' with
  | error e => rw [ofText_of_error hs, ofText_of_error (h.trans hs)]
  | ok l =>
    by_cases hf : l.token.kind = .finish
    · rw [ofText_of_finish hs hf, ofText_of_finish (h.trans hs) hf]
    · rw [ofText_of_token hs hf, ofText_of_token (h.trans hs) hf]

theorem ofText_nil (line : Nat) : ofText line [] = ⟨[], .ok ⟨.finish, line⟩⟩ := by
  have hscan : scan line [] = .ok ⟨⟨.finish, line⟩, line, []⟩ := rfl
  exact ofText_of_finish hscan rfl

end TokenStream

/-- **What is segmented is read.**  Its tokens come first in the stream. -/
theorem Segmented.ofText {line : Nat} {s rest : List Char} {ts : List Token}
    (h : Segmented line s ts rest) :
    TokenStream.ofText line (s ++ rest) =
      ⟨ts ++ (TokenStream.ofText (line + s.count '\n') rest).tokens,
        (TokenStream.ofText (line + s.count '\n') rest).ending⟩ := by
  induction h with
  | @gap line gap rest hgap => exact TokenStream.ofText_congr (scan_gap hgap line rest)
  | @lexeme line gap text more rest kind ts hgap hfits hmore ih =>
    have hscan := hfits.scan (line + gap.count '\n')
    rw [← scan_gap hgap, Nat.add_assoc, ← List.count_append] at hscan
    rw [List.append_assoc, List.append_assoc, TokenStream.ofText_of_token hscan hfits.ne_finish, ih,
      Nat.add_assoc, ← List.count_append, List.append_assoc]
    rfl

/-- No token of a segmented text is the end marker. -/
theorem Segmented.ne_finish {line : Nat} {s rest : List Char} {ts : List Token}
    (h : Segmented line s ts rest) : ∀ t ∈ ts, t.kind ≠ .finish := by
  induction h with
  | gap hgap => simp
  | lexeme hgap hfits hmore ih => exact List.forall_mem_cons.2 ⟨hfits.ne_finish, ih⟩

/-- The characters of every token are a part of the text. -/
theorem Segmented.exists_fits {line : Nat} {s rest : List Char} {ts : List Token}
    (h : Segmented line s ts rest) :
    ∀ t ∈ ts, ∃ text following, Fits text t.kind following ∧ text ⊆ s := by
  induction h with
  | gap hgap => exact List.forall_mem_nil _
  | @lexeme line gap text more rest kind ts hgap hfits hmore ih =>
    refine List.forall_mem_cons.2 ⟨⟨text, more ++ rest, hfits, ?_⟩, ?_⟩
    · intro c hc
      exact List.mem_append_right gap (List.mem_append_left more hc)
    · intro t ht
      obtain ⟨own, following, hown, hsubset⟩ := ih t ht
      refine ⟨own, following, hown, fun c hc => ?_⟩
      exact List.mem_append_right gap (List.mem_append_right text (hsubset hc))

/-! ## Lines of tokens

A token has the line of its first character, so lines follow from how the text is cut. -/

/-- No token of a segmented text stands on a line before it. -/
theorem Segmented.le_line {line : Nat} {s rest : List Char} {ts : List Token}
    (h : Segmented line s ts rest) : ∀ t ∈ ts, line ≤ t.line := by
  induction h with
  | gap hgap => simp
  | lexeme hgap hfits hmore ih =>
    refine List.forall_mem_cons.2 ⟨Nat.le_add_right _ _, fun t ht => ?_⟩
    have hle := ih t ht
    omega

/-- No token of a segmented text stands on a line behind its end. -/
theorem Segmented.line_le {line : Nat} {s rest : List Char} {ts : List Token}
    (h : Segmented line s ts rest) : ∀ t ∈ ts, t.line ≤ line + s.count '\n' := by
  induction h with
  | gap hgap => simp
  | lexeme hgap hfits hmore ih =>
    refine List.forall_mem_cons.2 ⟨?_, fun t ht => ?_⟩
    · simp only [List.count_append]
      omega
    · have hle := ih t ht
      simp only [List.count_append] at hle ⊢
      omega

/-- The lines of the tokens never decrease. -/
theorem Segmented.pairwise_line {line : Nat} {s rest : List Char} {ts : List Token}
    (h : Segmented line s ts rest) : ts.Pairwise (·.line ≤ ·.line) := by
  induction h with
  | gap hgap => exact List.Pairwise.nil
  | lexeme hgap hfits hmore ih =>
    refine List.pairwise_cons.2 ⟨fun t ht => ?_, ih⟩
    have hle := hmore.le_line t ht
    rw [List.count_append] at hle
    show _ + _ ≤ t.line
    omega

/-! ## What is read is segmented

By induction on the length of what is left to read. -/

/-- Behind a gap is the end of the text or a character that is none. -/
theorem split_gap (s : List Char) :
    ∃ gap rest, s = gap ++ rest ∧ (∀ c ∈ gap, isGap c = true) ∧
      ∀ c ∈ rest.head?, isGap c = false :=
  ⟨s.takeWhile isGap, s.dropWhile isGap, List.takeWhile_append_dropWhile.symm,
    List.all_eq_true.1 List.all_takeWhile, eq_false_of_mem_head?_dropWhile⟩

/-- What is scanned is a gap and a lexeme, or where the text ends, a gap. -/
theorem fits_of_scan {line : Nat} {s : List Char} {l : Lexed} (h : scan line s = .ok l) :
    ∃ gap, (∀ c ∈ gap, isGap c = true) ∧
      (l.token.kind = .finish ∧ s = gap ∨
        l.token.line = line + gap.count '\n' ∧
          ∃ text, s = gap ++ (text ++ l.rest) ∧ Fits text l.token.kind l.rest) := by
  obtain ⟨gap, rest, rfl, hgap, hhead⟩ := split_gap s
  rw [scan_gap hgap] at h
  refine ⟨gap, hgap, ?_⟩
  cases rest with
  | nil =>
    cases h
    exact Or.inl ⟨rfl, List.append_nil gap⟩
  | cons c cs =>
    rw [scan_of_not_isGap (hhead c rfl)] at h
    obtain ⟨text, hs, hfits, hline⟩ := fits_of_lexeme h
    exact Or.inr ⟨hline, text, congrArg (gap ++ ·) hs, hfits⟩

/-- Where scanning stops there is a misfit, perhaps behind a gap. -/
theorem misfit_of_scan {line : Nat} {s : List Char} {e : Error} (h : scan line s = .error e) :
    ∃ gap rest cause, s = gap ++ rest ∧ (∀ c ∈ gap, isGap c = true) ∧ Misfit rest cause ∧
      e = .onLine (line + gap.count '\n') cause := by
  obtain ⟨gap, rest, rfl, hgap, hhead⟩ := split_gap s
  rw [scan_gap hgap] at h
  cases rest with
  | nil => cases h
  | cons c cs =>
    have hc := hhead c rfl
    rw [scan_of_not_isGap hc] at h
    obtain ⟨cause, hmisfit, he⟩ := misfit_of_lexeme hc h
    exact ⟨gap, c :: cs, cause, rfl, hgap, hmisfit, he⟩

/-- The stream is that of a segmentation of the text, to its end or up to a misfit. -/
inductive Segments : Nat → List Char → TokenStream → Prop where
  | finish {line : Nat} {s : List Char} {ts : List Token} {t : Token}
      (h : Segmented line s ts []) : Segments line s ⟨ts, .ok t⟩
  | misfit {line : Nat} {done rest : List Char} {ts : List Token} {cause : Cause}
      (h : Segmented line done ts rest) (hmisfit : Misfit rest cause) :
      Segments line (done ++ rest) ⟨ts, .error (.onLine (line + done.count '\n') cause)⟩

/-- One more lexeme in front. -/
theorem Segments.lexeme {line : Nat} {gap text more : List Char} {kind : Token.Kind}
    {stream : TokenStream} (hgap : ∀ c ∈ gap, isGap c = true) (hfits : Fits text kind more)
    (h : Segments (line + (gap ++ text).count '\n') more stream) :
    Segments line (gap ++ (text ++ more))
      ⟨⟨kind, line + gap.count '\n'⟩ :: stream.tokens, stream.ending⟩ := by
  cases h with
  | finish h => exact .finish (.lexeme hgap (by rwa [List.append_nil]) h)
  | @misfit done rest ts cause h hmisfit =>
    have htext : gap ++ (text ++ (done ++ rest)) = gap ++ (text ++ done) ++ rest := by
      rw [List.append_assoc, List.append_assoc]
    have hcount : line + (gap ++ text).count '\n' + done.count '\n' =
        line + (gap ++ (text ++ done)).count '\n' := by
      simp only [List.count_append]
      omega
    rw [htext, hcount]
    exact .misfit (.lexeme hgap hfits h) hmisfit

/-- **What is read is segmented.** -/
theorem segments_ofText (line : Nat) (s : List Char) :
    Segments line s (TokenStream.ofText line s) := by
  -- the cases of the stream: a misfit, the end, a token and what follows it
  fun_induction TokenStream.ofText line s with
  | case1 line s e he =>
    obtain ⟨gap, rest, cause, rfl, hgap, hmisfit, rfl⟩ := misfit_of_scan he
    exact .misfit (.gap hgap) hmisfit
  | case2 line s l hl hf =>
    obtain ⟨gap, hgap, ⟨-, rfl⟩ | ⟨-, text, -, hfits⟩⟩ := fits_of_scan hl
    · exact .finish (.gap hgap)
    · exact absurd hf hfits.ne_finish
  | case3 line s l hl hf following ih =>
    obtain ⟨gap, hgap, ⟨hfinish, -⟩ | ⟨hline, text, rfl, hfits⟩⟩ := fits_of_scan hl
    · exact absurd hfinish hf
    · have hnext : l.line = line + (gap ++ text).count '\n' := by
        have hcount := line_of_scan hl
        rw [← List.append_assoc, List.count_append] at hcount
        omega
      have htoken : l.token = ⟨l.token.kind, line + gap.count '\n'⟩ := by rw [← hline]
      rw [htoken]
      exact .lexeme hgap hfits (hnext ▸ ih)

/-- The lines of the tokens never decrease, up to the end marker. -/
theorem TokenStream.pairwise_line (line : Nat) (s : List Char) :
    (ofText line s).delivered.Pairwise (·.line ≤ ·.line) := by
  have hstream := segments_ofText line s
  have hending := @TokenStream.ending_eq line s
  generalize ofText line s = stream at hstream hending
  cases hstream with
  | finish h =>
    refine List.pairwise_append.2 ⟨h.pairwise_line, List.pairwise_singleton _ _, fun t ht u hu => ?_⟩
    rw [List.mem_singleton.1 hu, hending rfl]
    exact h.line_le t ht
  | misfit h => exact h.pairwise_line

/-! ## All tokens of a source text -/

/-- A source text that has tokens is cut into them to its end, comments taken out. -/
theorem segmented_of_tokens {source : String} {ts : List Token} (h : tokens source = .ok ts) :
    Segmented 1 (eraseComments source.toList) ts [] := by
  have hsegments := segments_ofText 1 (eraseComments source.toList)
  rw [← TokenStream.ofSource, tokens_eq_ok_iff.1 h] at hsegments
  generalize eraseComments source.toList = s at hsegments
  cases hsegments with
  | finish hsegmented => exact hsegmented

/-- **The tokens of a source text** are those of its segmentation, comments taken out.  Where a text
is segmented only up to a place at which no lexeme stands, the error is that of the misfit there, on
the line of that place; and a misfit is what stands wherever neither a gap nor a lexeme does. -/
theorem tokens_iff_segmented (source : String) :
    (∀ ts, tokens source = .ok ts ↔ Segmented 1 (eraseComments source.toList) ts []) ∧
    (∀ e, tokens source = .error e ↔ ∃ done ts rest cause,
      eraseComments source.toList = done ++ rest ∧ Segmented 1 done ts rest ∧
      NoLexeme rest ∧ Misfit rest cause ∧ e = .onLine (1 + done.count '\n') cause) ∧
    ∀ c cs, isGap c = false → ((∃ cause, Misfit (c :: cs) cause) ↔ NoLexeme (c :: cs)) := by
  have hstream := segments_ofText 1 (eraseComments source.toList)
  refine ⟨fun ts => ⟨fun h => ?_, fun h => ?_⟩, fun e => ⟨fun h => ?_, ?_⟩,
    -- from the stream to the segments by their cases, and back by reading segments again
    fun c cs => exists_misfit_iff⟩
  · rw [tokens_eq_ok_iff, TokenStream.ofSource] at h
    rw [h] at hstream
    generalize eraseComments source.toList = s at hstream
    cases hstream with
    | finish h => exact h
  · have hread := h.ofText
    rw [List.append_nil, TokenStream.ofText_nil, List.append_nil] at hread
    rw [tokens, TokenStream.ofSource, hread]
  · rw [tokens, TokenStream.ofSource] at h
    generalize TokenStream.ofText 1 (eraseComments source.toList) = stream at h hstream
    generalize eraseComments source.toList = s at hstream
    cases hstream with
    | finish => cases h
    | @misfit done rest ts cause hdone hmisfit =>
      cases h
      exact ⟨done, ts, rest, cause, rfl, hdone, hmisfit.noLexeme, hmisfit, rfl⟩
  · rintro ⟨done, ts, rest, cause, hs, hdone, -, hmisfit, rfl⟩
    have hread := hdone.ofText
    rw [TokenStream.ofText_of_error (hmisfit.scan _), List.append_nil] at hread
    rw [tokens, TokenStream.ofSource, hs, hread]

end Scriptlet
