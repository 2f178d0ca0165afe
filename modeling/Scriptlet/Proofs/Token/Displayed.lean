import Scriptlet.Proofs.Syntax.Printing
import Scriptlet.Proofs.Token.Segmentation

/-!
Tokens that are displayed and read again.

Displaying a token forgets how it was spelled: a number is written as the shortest decimal that
denotes it, and the comments and gaps around the token are gone.  What a token was read from still
says enough about it, since its characters are at hand: a word starts with a letter and has no
delimiter in it, a literal has no quote between its quotes, and none of them has a comment mark,
because comments were taken out before (`Segmented.exists_fits`).  So what is displayed is one of the
spellings of the same token (`Fits.spells_display`).

A single blank behind a token is enough.  It ends a word and a numeral, so no token runs into the
next, and it belongs to none (`layout_joined`).

Infinity is displayed as a word.  So a numeral beyond every double is read back as a name, and the
numbers have to be finite.

What has to be shown is that the displayed text can be cut into lexemes in the way that is wanted,
because the scanner was shown to follow any such cut.  So the proof goes token by token, and a token
that was read has exactly one kind of spelling that it was read from.  The one case with an argument
in it is that of a number.  Its display is another numeral than the one in the source, but the two
denote decimals that are rounded to the same double.

Main statement: `tokens_displayed`.
-/

namespace Scriptlet

/-- The tokens as they are displayed, with a single blank between each two. -/
def displayed (ts : List Token) : String := " ".intercalate (ts.map fun t => t.kind.display)

/-- Does the token denote a finite number, if it denotes one? -/
def Token.Kind.isFinite : Token.Kind → Bool
  | .number x => Binary.rankOf x < Binary.infinityRank
  | _ => true

/-! ## One token -/

/-- **A token is spelled as it is displayed**, however it was spelled when it was read. -/
theorem Fits.spells_display {text rest : List Char} {kind : Token.Kind} (h : Fits text kind rest)
    (hmark : commentMark ∉ text) (hfinite : kind.isFinite = true) :
    Spells kind.display.toList kind := by
  cases h with
  -- the number of a numeral has no sign, so it is displayed as a numeral of the syntax trees
  | @numeral c cs _ x hdigit hcs hends hread =>
    have hunsigned : Binary.isNegative (x.toFloat false) = false :=
      Binary.isNegative_ofRank false x.nearestRank_le
    exact Syntax.Numeral.spells ⟨x.toFloat false, hunsigned, of_decide_eq_true hfinite⟩
  | @word c cs _ hletter hcs hends =>
    -- a word is displayed as it is, and a keyword as its word
    have hspells : Spells (c :: cs) (wordKind (String.ofList (c :: cs))) :=
      .word hletter hcs fun hmem => hmark (List.mem_cons_of_mem c hmem)
    unfold wordKind at hspells ⊢
    cases hkeyword : Keyword.ofSpelling? (String.ofList (c :: cs)) with
    | some k => exact Syntax.spells_keyword k
    | none =>
      rw [hkeyword] at hspells
      show Spells (String.ofList (c :: cs)).toList _
      rw [String.toList_ofList]
      exact hspells
  | @literal body _ hquote =>
    show Spells (String.ofList (quoteMark :: (body ++ [quoteMark]))).toList _
    rw [String.toList_ofList]
    refine .literal hquote fun hmem => hmark ?_
    exact List.mem_cons_of_mem _ (List.mem_append_left _ hmem)
  | @symbol c _ hdigit hletter hquote hblank =>
    rw [Syntax.toList_display_symbol]
    refine .symbol hdigit hletter hquote hblank ?_
    rintro rfl
    exact hmark List.mem_cons_self

/-! ## Single blanks -/

/-- Spellings with a single blank between each two, behind any gap. -/
theorem layout_joined {kinds : List Token.Kind} (h : Syntax.Spellable kinds) {gap : List Char}
    (hgap : ∀ c ∈ gap, isGap c = true) :
    Layout kinds (gap ++ [' '].intercalate (kinds.map fun kind => kind.display.toList)) := by
  induction kinds generalizing gap with
  | nil =>
    rw [List.map_nil, List.intercalate_nil, List.append_nil]
    exact .finish hgap
  | cons kind kinds ih =>
    have hkind := h kind List.mem_cons_self
    have hkinds : Syntax.Spellable kinds := fun k hk => h k (List.mem_cons_of_mem _ hk)
    cases kinds with
    | nil =>
      -- the last token ends with the text
      have hends : EndsWord [] := fun c hc => nomatch hc
      have hlayout : Layout [kind] (gap ++ (kind.display.toList ++ [])) :=
        .token hgap hkind (fun _ => hends) (.finish (List.forall_mem_nil _))
      rw [List.append_nil] at hlayout
      rw [List.map_singleton, List.intercalate_singleton]
      exact hlayout
    | cons next kinds =>
      have hblank : ∀ c ∈ [' '], isGap c = true := List.forall_mem_singleton.2 rfl
      have hrest := ih hkinds hblank
      rw [List.map_cons, List.map_cons, List.intercalate_cons_cons, List.append_assoc]
      refine .token hgap hkind (fun _ c hc => ?_) hrest
      have heq : ' ' = c := Option.some.inj hc
      rw [← heq]
      decide

/-- **Printed tokens are read back.**  If the numbers among the tokens of a source text are finite,
then the tokens as they are displayed, with single blanks between them, are a source text with the
same kinds of tokens in the same order. -/
theorem tokens_displayed {source : String} {ts : List Token} (h : tokens source = .ok ts)
    (hfinite : ∀ t ∈ ts, t.kind.isFinite = true) :
    ∃ us, tokens (displayed ts) = .ok us ∧ us.map Token.kind = ts.map Token.kind := by
  have hspellable : Syntax.Spellable (ts.map Token.kind) := by
    intro kind hkind
    obtain ⟨t, ht, rfl⟩ := List.mem_map.1 hkind
    obtain ⟨text, following, hfits, hsubset⟩ := (segmented_of_tokens h).exists_fits t ht
    refine hfits.spells_display (fun hmem => ?_) (hfinite t ht)
    exact commentMark_notMem_eraseCommentsFrom false source.toList (hsubset hmem)
  have hlayout := layout_joined hspellable (List.forall_mem_nil _)
  rw [List.nil_append, List.map_map] at hlayout
  apply tokens_of_layout
  rw [displayed, String.toList_intercalate, List.map_map]
  exact hlayout

/-- A numeral with zeros too many, a comment, a literal over two lines and a word with a point in
it. -/
theorem tokens_displayed_spaced :
    tokens "x=00.50#note\n+\"two\n lines\"ifé 1e3 a.b" =
      .ok [⟨.identifier "x", 1⟩, ⟨.symbol '=', 1⟩, ⟨.number 0.5, 1⟩, ⟨.symbol '+', 2⟩,
        ⟨.text "\"two\n lines\"", 2⟩, ⟨.identifier "ifé", 3⟩, ⟨.number 1000, 3⟩,
        ⟨.identifier "a.b", 3⟩] ∧
    displayed [⟨.identifier "x", 1⟩, ⟨.symbol '=', 1⟩, ⟨.number 0.5, 1⟩, ⟨.symbol '+', 2⟩,
        ⟨.text "\"two\n lines\"", 2⟩, ⟨.identifier "ifé", 3⟩, ⟨.number 1000, 3⟩,
        ⟨.identifier "a.b", 3⟩] = "x = 0.5 + \"two\n lines\" ifé 1000 a.b" ∧
    ∃ us, tokens (displayed [⟨.identifier "x", 1⟩, ⟨.symbol '=', 1⟩, ⟨.number 0.5, 1⟩,
        ⟨.symbol '+', 2⟩, ⟨.text "\"two\n lines\"", 2⟩, ⟨.identifier "ifé", 3⟩, ⟨.number 1000, 3⟩,
        ⟨.identifier "a.b", 3⟩]) = .ok us ∧
      us.map Token.kind = [.identifier "x", .symbol '=', .number 0.5, .symbol '+',
        .text "\"two\n lines\"", .identifier "ifé", .number 1000, .identifier "a.b"] := by
  have hread : tokens "x=00.50#note\n+\"two\n lines\"ifé 1e3 a.b" =
      .ok [⟨.identifier "x", 1⟩, ⟨.symbol '=', 1⟩, ⟨.number 0.5, 1⟩, ⟨.symbol '+', 2⟩,
        ⟨.text "\"two\n lines\"", 2⟩, ⟨.identifier "ifé", 3⟩, ⟨.number 1000, 3⟩,
        ⟨.identifier "a.b", 3⟩] := by decide +kernel
  exact ⟨hread, by decide +kernel, tokens_displayed hread (by decide +kernel)⟩

end Scriptlet
