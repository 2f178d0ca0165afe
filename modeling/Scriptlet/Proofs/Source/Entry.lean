import Scriptlet.Proofs.Grammar.Completeness.Program
import Scriptlet.Proofs.Session.Safety
import Scriptlet.Proofs.Token.Segmentation
import Scriptlet.Source.Entry

/-!
Entries that are programs.

An entry is told to be a program by its first four characters, the word `fun` and a space.  The reader
tells it by its first token, and for the reader a word ends at any delimiter.  The two agree in one
direction: an entry that is taken for a program begins with the reserved word.  In the other direction
they do not.  Behind `fun` a program has to have a name, so what ends the word is a blank, or a
comment mark whose comment is followed by one; of the five characters that can stand there the space
is the only one that is recognised.

The failing entries are known exactly: an entry that is a program with a function, and is not
recognised, begins with the word and one of the other blanks, or with a comment right behind the word.
With the blank replaced by a space the same entry is recognised, and it is the same program
(`parse_of_blank`).  So what the recognition misses is a matter of one character.

A program need not begin with the word, as blanks or comments may stand in front of it, or as it may
have no function at all.  Of such entries nothing is said: nobody could tell them from the name of a
file by what they begin with.

Main statement: `Entry.programs_among_entries`, with the entries that are programs and are taken for
the name of a file.
-/

namespace Scriptlet

/-! ## The characters of a reserved word

A reserved word is one spelling, and a name begins with a letter, so they cannot touch. -/

theorem spelling_of_wordKind {s : String} {k : Keyword} (h : wordKind s = .keyword k) :
    k.spelling = s := by
  unfold wordKind at h
  split at h
  · next found hfound =>
    cases h
    exact Keyword.spelling_of_ofSpelling? hfound
  · cases h

/-- A reserved word is spelled in one way. -/
theorem Fits.eq_spelling {text rest : List Char} {k : Keyword} (h : Fits text (.keyword k) rest) :
    text = k.spelling.toList ∧ EndsWord rest := by
  generalize hkind : Token.Kind.keyword k = kind at h
  cases h with
  | word hletter hcs hends =>
    rw [spelling_of_wordKind hkind.symm, String.toList_ofList]
    exact ⟨rfl, hends⟩
  | _ => cases hkind

/-- A name starts with a letter. -/
theorem Fits.head_isLetter {text rest : List Char} {name : String}
    (h : Fits text (.identifier name) rest) : ∃ c cs, text = c :: cs ∧ Text.isLetter c = true := by
  generalize hkind : Token.Kind.identifier name = kind at h
  cases h with
  | word hletter hcs hends => exact ⟨_, _, rfl, hletter⟩
  | _ => cases hkind

/-- No delimiter is a letter. -/
theorem inWord_of_isLetter {c : Char} (h : Text.isLetter c = true) : inWord c = true := by
  have hdelimiters : delimiters.all (!Text.isLetter ·) = true := by decide
  cases hc : inWord c with
  | true => rfl
  | false =>
    have hmem : c ∈ delimiters := by simpa [inWord] using hc
    have hnot := List.all_eq_true.1 hdelimiters c hmem
    rw [h] at hnot
    cases hnot

/-- **Between a reserved word and a name** there is a blank that ends the word. -/
theorem Segmented.blank_of_keyword {line own other : Nat} {s rest : List Char} {k : Keyword}
    {name : String} {ts : List Token}
    (h : Segmented line s (⟨.keyword k, own⟩ :: ⟨.identifier name, other⟩ :: ts) rest) :
    ∃ gap c more, s = gap ++ (k.spelling.toList ++ c :: more) ∧
      (∀ d ∈ gap, isGap d = true) ∧ isGap c = true ∧ inWord c = false := by
  cases h with
  | @lexeme _ gap _ more _ _ _ hgap hfits hmore =>
    obtain ⟨rfl, hends⟩ := hfits.eq_spelling
    cases hmore with
    | @lexeme _ between text more _ _ _ hbetween hfits hmore =>
      obtain ⟨d, ds, rfl, hletter⟩ := hfits.head_isLetter
      cases between with
      | nil =>
        -- then the name would be the end of the word
        have hend : inWord d = false := hends d rfl
        rw [inWord_of_isLetter hletter] at hend
        cases hend
      | cons c cs =>
        exact ⟨gap, c, _, rfl, hgap, hbetween c List.mem_cons_self, hends c rfl⟩

/-! ## Comments -/

/-- Characters in front of every comment stay. -/
theorem eraseComments_append {s : List Char} (h : commentMark ∉ s) (rest : List Char) :
    eraseComments (s ++ rest) = s ++ eraseComments rest := by
  induction s with
  | nil => rfl
  | cons c cs ih =>
    obtain ⟨hc, hcs⟩ := not_or.1 (mt List.mem_cons.2 h)
    have hne : ¬ (false = true ∨ c = commentMark) := by
      rintro (hfalse | rfl)
      · cases hfalse
      · exact hc rfl
    have hrest := ih hcs
    unfold eraseComments at hrest ⊢
    rw [List.cons_append, List.cons_append, eraseCommentsFrom, hrest]
    by_cases hbreak : c = '\n'
    · rw [if_pos hbreak, hbreak]
    · rw [if_neg hbreak, if_neg hne]

/-- What comes first without the comments comes first, or a comment does. -/
theorem head_of_eraseComments {s rest : List Char} {c : Char} (h : eraseComments s = c :: rest) :
    ∃ d ds, s = d :: ds ∧ (d = c ∨ d = commentMark) := by
  cases s with
  | nil => cases h
  | cons d ds =>
    refine ⟨d, ds, rfl, ?_⟩
    unfold eraseComments eraseCommentsFrom at h
    split at h
    · next hbreak =>
      cases h
      exact Or.inl hbreak
    split at h
    · next hmark => exact Or.inr (hmark.resolve_left Bool.false_ne_true)
    · cases h
      exact Or.inl rfl

/-! ## The beginning of a program

What the reader needs behind the first word. -/

/-- The word that starts a function. -/
def functionWord : List Char := Keyword.function.spelling.toList

/-- The blanks of a line that end a word. -/
def lineBlanks : List Char := [' ', '\t', '\r']

/-- The characters that can stand behind the word. -/
def wordEnds : List Char := '\n' :: commentMark :: lineBlanks

theorem traits_of_lineBlank {c : Char} (h : c ∈ lineBlanks) :
    isGap c = true ∧ inWord c = false ∧ c ≠ commentMark ∧ c ≠ '\n' := by
  simp only [lineBlanks, List.mem_cons, List.not_mem_nil, or_false] at h
  rcases h with rfl | rfl | rfl <;> decide

/-- A delimiter that stands between two tokens. -/
theorem mem_wordEnds {c : Char} (hends : inWord c = false) (hgap : isGap c = true) : c ∈ wordEnds := by
  have hdelimiters : (delimiters.filter isGap).all wordEnds.contains = true := by decide
  have hmem : c ∈ delimiters := by simpa [inWord] using hends
  have hcontains := List.all_eq_true.1 hdelimiters c (List.mem_filter.2 ⟨hmem, hgap⟩)
  exact List.contains_iff_mem.1 hcontains

/-- The first token of a text that starts with the word and a delimiter. -/
theorem TokenStream.ofText_function {rest : List Char} (h : EndsWord rest) (line : Nat) :
    ofText line (functionWord ++ rest) =
      ⟨⟨.keyword .function, line⟩ :: (ofText line rest).tokens, (ofText line rest).ending⟩ := by
  have hkind : wordKind (String.ofList functionWord) = .keyword .function := by decide
  have hfits : Fits functionWord (.keyword .function) rest := by
    have hin : ['u', 'n'].all inWord = true := by decide
    rw [← hkind]
    exact Fits.word (by decide) (List.all_eq_true.1 hin) h
  have hscan := hfits.scan line
  rw [ofText_of_token hscan (by simp)]
  rfl

namespace Program

variable {source : String} {p : Program}

/-- A program with a function starts with the reserved word and a name. -/
theorem tokens_of_children (h : parse source = .ok p) (hne : p.root.children ≠ []) :
    ∃ line own name ts, tokens source =
      .ok (⟨.keyword .function, line⟩ :: ⟨.identifier name, own⟩ :: ts) := by
  obtain ⟨ts, hts, hderives⟩ := derives_of_parse h
  generalize hall : ts ++ [endMarker source] = all at hderives
  cases hderives with
  | program hdeclarations hlast =>
    cases hdeclarations with
    | none => exact absurd rfl hne
    | cons head tail =>
      cases head with
      | function parameters body =>
        -- there are at least two tokens before the end marker
        match ts, hall with
        | [], hall => simp at hall
        | [t], hall => simp at hall
        | t :: u :: more, hall =>
          obtain ⟨hfirst, hothers⟩ := List.cons.inj hall
          rw [hfirst, (List.cons.inj hothers).1] at hts
          exact ⟨_, _, _, more, hts⟩

/-- **What stands behind the word** in a program that starts with it. -/
theorem exists_wordEnd (h : parse source = .ok p) (hne : p.root.children ≠ [])
    (hword : functionWord <+: source.toList) :
    ∃ c ∈ wordEnds, ∃ rest, source.toList = functionWord ++ c :: rest := by
  obtain ⟨line, own, name, ts, hts⟩ := tokens_of_children h hne
  obtain ⟨behind, hbehind⟩ := hword
  obtain ⟨gap, c, more, hs, hgap, hblank, hends⟩ := (segmented_of_tokens hts).blank_of_keyword
  rw [← hbehind, eraseComments_append (by decide)] at hs
  cases gap with
  | cons d ds =>
    -- a blank before the word would be the first character
    obtain ⟨rfl, -⟩ := List.cons.inj hs
    exact absurd (hgap _ List.mem_cons_self) (by decide)
  | nil =>
    have hrest : eraseComments behind = c :: more := List.append_cancel_left hs
    obtain ⟨d, rest, rfl, hd⟩ := head_of_eraseComments hrest
    refine ⟨d, ?_, rest, hbehind.symm⟩
    rcases hd with rfl | rfl
    · exact mem_wordEnds hends hblank
    · exact List.mem_cons_of_mem _ List.mem_cons_self

/-- The tokens of a text that starts with the word and a blank on its line are the same whichever
blank it is. -/
theorem ofSource_of_blank {c : Char} (hc : c ∈ lineBlanks) (rest : List Char) :
    TokenStream.ofSource (String.ofList (functionWord ++ c :: rest)) =
      ⟨⟨.keyword .function, 1⟩ :: (TokenStream.ofText 1 (eraseComments rest)).tokens,
        (TokenStream.ofText 1 (eraseComments rest)).ending⟩ := by
  obtain ⟨hgap, hends, hmark, hbreak⟩ := traits_of_lineBlank hc
  have hscan := scan_gap (List.forall_mem_singleton.2 hgap) 1 (eraseComments rest)
  rw [List.count_singleton, if_neg (by simpa using hbreak)] at hscan
  have herase : eraseComments (c :: rest) = [c] ++ eraseComments rest :=
    eraseComments_append (fun hmem => hmark (List.mem_singleton.1 hmem).symm) rest
  have hfirst : EndsWord ([c] ++ eraseComments rest) := by
    rintro d ⟨rfl⟩
    exact hends
  unfold TokenStream.ofSource
  rw [String.toList_ofList, eraseComments_append (by decide), herase,
    TokenStream.ofText_function hfirst, TokenStream.ofText_congr hscan]

/-- Nor is the program another one. -/
theorem parse_of_blank {c : Char} (hc : c ∈ lineBlanks) (rest : List Char) :
    parse (String.ofList (functionWord ++ c :: rest)) = .ok p ↔
      parse (String.ofList (functionWord ++ ' ' :: rest)) = .ok p := by
  have htokens : tokens (String.ofList (functionWord ++ c :: rest)) =
      tokens (String.ofList (functionWord ++ ' ' :: rest)) := by
    rw [tokens, tokens, ofSource_of_blank hc, ofSource_of_blank List.mem_cons_self]
  have hmarker : endMarker (String.ofList (functionWord ++ c :: rest)) =
      endMarker (String.ofList (functionWord ++ ' ' :: rest)) := by
    obtain ⟨-, -, -, hbreak⟩ := traits_of_lineBlank hc
    rw [endMarker, endMarker, String.toList_ofList, String.toList_ofList, List.count_append,
      List.count_append, List.count_cons_of_ne hbreak, List.count_cons_of_ne (by decide)]
  rw [parse_eq_ok_iff_derives, parse_eq_ok_iff_derives, htokens, hmarker]

end Program

namespace Entry

open Program

variable {text : String} {rest : List Char}

/-- The start that is looked for is the word and a space. -/
theorem isPrefixOf_iff :
    inlineStart.isPrefixOf text.toList = true ↔
      ∃ rest, text.toList = functionWord ++ ' ' :: rest := by
  rw [List.isPrefixOf_iff_prefix]
  constructor
  · rintro ⟨rest, hrest⟩
    exact ⟨rest, hrest.symm⟩
  · rintro ⟨rest, hrest⟩
    exact ⟨rest, hrest.symm⟩

theorem ofText_of_space (h : text.toList = functionWord ++ ' ' :: rest) :
    ofText text = .inline text := if_pos (isPrefixOf_iff.2 ⟨rest, h⟩)

theorem ofText_of_ne_space {c : Char} (h : text.toList = functionWord ++ c :: rest) (hc : c ≠ ' ') :
    ofText text = .file (String.ofList (Text.trim text.toList)) := by
  refine if_neg fun hstart => ?_
  obtain ⟨others, hothers⟩ := isPrefixOf_iff.1 hstart
  rw [h] at hothers
  exact hc (List.head_eq_of_cons_eq (List.append_cancel_left hothers))

/-- What is taken for a program starts with the word and a space, and is taken as it stands. -/
theorem eq_of_inline {program : String} (h : ofText text = .inline program) :
    program = text ∧ ∃ rest, text.toList = functionWord ++ ' ' :: rest := by
  unfold ofText at h
  split at h
  · next hstart =>
    cases h
    exact ⟨rfl, isPrefixOf_iff.1 hstart⟩
  · cases h

/-- **Entries and programs.**  An entry that is a program with a function, and starts with the word
`fun`, has a blank or a comment behind it.  If this is a space it is taken for the program, whatever
files there are; if it is another blank or a comment, it is taken for the path of a file. 
Conversely the first token of an entry that is taken for a program is the reserved word.  The reader
does not tell the blanks of a line apart. -/
theorem programs_among_entries (text : String) :
    (∀ p, parse text = .ok p → p.root.children ≠ [] → functionWord <+: text.toList →
      ∃ c ∈ wordEnds, ∃ rest, text.toList = functionWord ++ c :: rest ∧
        (c = ' ' → ofText text = .inline text ∧ ∀ read, (ofText text).load read = .ok text) ∧
        (c ≠ ' ' → ofText text = .file (String.ofList (Text.trim text.toList)))) ∧
    (∀ program, ofText text = .inline program → program = text ∧
      (TokenStream.ofSource text).tokens.head? = some ⟨.keyword .function, 1⟩) ∧
    ∀ c ∈ lineBlanks, ∀ rest, text = String.ofList (functionWord ++ c :: rest) →
      ∀ p, parse text = .ok p ↔ parse (String.ofList (functionWord ++ ' ' :: rest)) = .ok p := by
  refine ⟨?_, ?_, ?_⟩
  · -- a program among the entries begins with the word and one of the blanks behind it
    intro p hparse hne hword
    obtain ⟨c, hc, rest, htext⟩ := exists_wordEnd hparse hne hword
    refine ⟨c, hc, rest, htext, ?_, ?_⟩
    · rintro rfl
      have hinline := ofText_of_space htext
      refine ⟨hinline, fun read => ?_⟩
      rw [hinline]
      rfl
    · intro hspace
      exact ofText_of_ne_space htext hspace
  · -- an inline program is the whole text
    intro program hinline
    obtain ⟨rfl, rest, htext⟩ := eq_of_inline hinline
    refine ⟨rfl, ?_⟩
    have hstream := ofSource_of_blank (c := ' ') List.mem_cons_self rest
    rw [← htext, String.ofList_toList] at hstream
    rw [hstream]
    rfl
  · rintro c hc rest rfl p
    exact parse_of_blank hc rest

/-- A program that is taken for the path of a file: the name of its function is behind a tab. -/
theorem program_taken_for_path :
    ∃ p, parse "fun\tmain() { write(1) }" = .ok p ∧ p.root.children ≠ [] ∧
      functionWord <+: "fun\tmain() { write(1) }".toList ∧
      ofText "fun\tmain() { write(1) }" ≠ .inline "fun\tmain() { write(1) }" := by
  have hany : (parse "fun\tmain() { write(1) }").toOption.any
      fun p => !p.root.children.isEmpty := by decide +kernel
  obtain ⟨p, hp, hchildren⟩ := exists_of_any hany
  refine ⟨p, hp, ?_, by decide, by decide⟩
  intro hnil
  rw [hnil] at hchildren
  cases hchildren

end Entry
end Scriptlet
