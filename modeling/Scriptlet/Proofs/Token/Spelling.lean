import Scriptlet.Proofs.Token.Lexemes

/-!
Texts that spell a given list of tokens.

Many texts have the same tokens: a number has many numerals, and there may be any blanks between two
tokens, or none where the first of them ends by itself.  `Spells text kind` lists the ways to write
one token, and `Layout kinds text` says that a text consists of these tokens in this order.

The crux is that a word runs as far as it can.  So what follows a word or a numeral has to start with
a delimiter, while a symbol and a text literal end where they end.

This is the segmentation of a text seen from the tokens.  There each token is what its characters are
read as; here the characters are any that are read so, with the gaps left open.  So a program can be
written down in many ways, and each of them is read as the program.

Main statement: the tokens of such a text are those it was laid out from (`tokens_of_layout`).
-/

namespace Scriptlet

/-! ## The spellings of a token

What a token may be written as.  Comments are no part of it: they are taken out before. -/

/-- The ways to write a token.  No comment mark occurs in any of them. -/
inductive Spells : List Char → Token.Kind → Prop where
  | numeral {c : Char} {cs : List Char} {x : Decimal} (hdigit : c.isDigit = true)
      (hcs : ∀ d ∈ cs, inWord d = true) (hmark : commentMark ∉ cs)
      (hread : Decimal.read? (c :: cs) = some x) : Spells (c :: cs) (.number (x.toFloat false))
  | word {c : Char} {cs : List Char} (hletter : Text.isLetter c = true)
      (hcs : ∀ d ∈ cs, inWord d = true) (hmark : commentMark ∉ cs) :
      Spells (c :: cs) (wordKind (String.ofList (c :: cs)))
  | literal {body : List Char} (hquote : quoteMark ∉ body) (hmark : commentMark ∉ body) :
      Spells (quoteMark :: (body ++ [quoteMark]))
        (.text (String.ofList (quoteMark :: (body ++ [quoteMark]))))
  | symbol {c : Char} (hdigit : c.isDigit = false) (hletter : Text.isLetter c = false)
      (hquote : c ≠ quoteMark) (hblank : Text.isBlank c = false) (hmark : c ≠ commentMark) :
      Spells [c] (.symbol c)

/-- Does a token of this kind run up to the next delimiter? -/
def Token.Kind.runsOn : Token.Kind → Bool
  | .number _ | .identifier _ | .keyword _ => true
  | .text _ | .symbol _ | .finish => false

theorem runsOn_wordKind (word : String) : (wordKind word).runsOn = true := by
  unfold wordKind
  split <;> rfl

/-- No spelling has a comment mark in it. -/
theorem Spells.unmarked {text : List Char} {kind : Token.Kind} (h : Spells text kind) :
    commentMark ∉ text := by
  -- the first character says that it is none, and the others are supposed to be none
  cases h with
  | numeral hdigit hcs hmark hread =>
    intro hmem
    rcases List.mem_cons.1 hmem with rfl | hmem
    · exact absurd hdigit (by decide)
    · exact hmark hmem
  | word hletter hcs hmark =>
    intro hmem
    rcases List.mem_cons.1 hmem with rfl | hmem
    · exact absurd hletter (by decide)
    · exact hmark hmem
  | literal hquote hmark =>
    have hne : commentMark ≠ quoteMark := by decide
    simp [hne, hmark]
  | symbol hdigit hletter hquote hblank hmark =>
    intro hmem
    exact hmark (List.mem_singleton.1 hmem).symm

/-- A spelling, followed by what may follow it, is a lexeme. -/
theorem Spells.fits {text rest : List Char} {kind : Token.Kind} (h : Spells text kind)
    (hends : kind.runsOn = true → EndsWord rest) : Fits text kind rest := by
  cases h with
  | numeral hdigit hcs hmark hread => exact .numeral hdigit hcs (hends rfl) hread
  | word hletter hcs hmark => exact .word hletter hcs (hends (runsOn_wordKind _))
  | literal hquote hmark => exact .literal hquote
  | symbol hdigit hletter hquote hblank hmark => exact .symbol hdigit hletter hquote hblank

/-- A spelling is not the end of the text. -/
theorem Spells.ne_finish {text : List Char} {kind : Token.Kind} (h : Spells text kind) :
    kind ≠ .finish := by
  have hends : EndsWord [] := fun c hc => nomatch hc
  exact (h.fits fun _ => hends).ne_finish

/-- **One token.**  A spelling is read as its token, and what follows it is left. -/
theorem Spells.scan {text rest : List Char} {kind : Token.Kind} (h : Spells text kind)
    (hends : kind.runsOn = true → EndsWord rest) (line : Nat) :
    ∃ line', scan line (text ++ rest) = .ok ⟨⟨kind, line⟩, line', rest⟩ :=
  ⟨_, (h.fits hends).scan line⟩

/-! ## Texts -/

/-- The text consists of these tokens, with gaps before, between and behind them. -/
inductive Layout : List Token.Kind → List Char → Prop where
  | finish {gap : List Char} (hgap : ∀ c ∈ gap, isGap c = true) : Layout [] gap
  | token {gap text rest : List Char} {kind : Token.Kind} {kinds : List Token.Kind}
      (hgap : ∀ c ∈ gap, isGap c = true) (htext : Spells text kind)
      (hends : kind.runsOn = true → EndsWord rest) (hrest : Layout kinds rest) :
      Layout (kind :: kinds) (gap ++ (text ++ rest))

/-- Where a gap may stand, a comment cannot start. -/
theorem commentMark_notMem_of_isGap {gap : List Char} (h : ∀ c ∈ gap, isGap c = true) :
    commentMark ∉ gap := by
  intro hmem
  exact absurd (h _ hmem) (by decide)

theorem Layout.unmarked {kinds : List Token.Kind} {s : List Char} (h : Layout kinds s) :
    commentMark ∉ s := by
  induction h with
  | finish hgap => exact commentMark_notMem_of_isGap hgap
  | token hgap htext hends hrest ih =>
    intro hmem
    rcases List.mem_append.1 hmem with hmem | hmem
    · exact commentMark_notMem_of_isGap hgap hmem
    rcases List.mem_append.1 hmem with hmem | hmem
    · exact htext.unmarked hmem
    · exact ih hmem

/-- The stream of a text goes through its layout. -/
theorem Layout.stream {kinds : List Token.Kind} {s : List Char} (h : Layout kinds s) (line : Nat) :
    ∃ ts t, TokenStream.ofText line s = ⟨ts, .ok t⟩ ∧ ts.map Token.kind = kinds := by
  induction h generalizing line with
  | @finish gap hgap =>
    have hscan := scan_gap hgap line []
    rw [List.append_nil] at hscan
    exact ⟨[], _, TokenStream.ofText_of_finish hscan rfl, rfl⟩
  | @token gap text rest kind kinds hgap htext hends hrest ih =>
    obtain ⟨line', hscan⟩ := htext.scan hends (line + gap.count '\n')
    rw [← scan_gap hgap line] at hscan
    obtain ⟨ts, t, hts, hkinds⟩ := ih line'
    refine ⟨⟨kind, line + gap.count '\n'⟩ :: ts, t, ?_, ?_⟩
    · rw [TokenStream.ofText_of_token hscan htext.ne_finish, hts]
    · rw [List.map_cons, hkinds]

/-- **Reading a layout.**  The tokens of a text are those it was laid out from. -/
theorem tokens_of_layout {kinds : List Token.Kind} {source : String}
    (h : Layout kinds source.toList) :
    ∃ ts, tokens source = .ok ts ∧ ts.map Token.kind = kinds := by
  obtain ⟨ts, t, hstream, hkinds⟩ := h.stream 1
  rw [← eraseComments_of_notMem h.unmarked] at hstream
  have hsource : TokenStream.ofSource source = ⟨ts, .ok t⟩ := hstream
  refine ⟨ts, ?_, hkinds⟩
  unfold tokens
  rw [hsource]

end Scriptlet
