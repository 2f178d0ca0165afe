import Scriptlet.Proofs.Token.Stream

/-!
Lexemes: which characters are a token, and where none is.

`Fits text kind rest` says that the characters `text`, followed by `rest`, are a token of the given
kind.  The crux is that a word or a numeral runs as far as it can, so what follows it has to start
with a delimiter, while a symbol and a text literal end where they end.  What is inside a word does
not matter: a character that separates tokens may stand there, or one that is refused elsewhere.

`Misfit s cause` lists the texts at whose beginning no token stands, with the reason: a numeral that
denotes no number, a literal without a second quote, a blank that separates nothing.

The scanner looks at a character and takes what begins there, in a fixed order of questions.  `Fits`
and `Misfit` ask nothing in any order: each rule stands for itself, and that no two of them apply to
one text is a theorem.  It rests on the classes of characters being disjoint.  Letters, digits and
blanks are told apart by tables of ranges, and those do not overlap (`Text.inRanges_of_disjoint`).

Main statements: scanning reads a lexeme (`Fits.scan`) and nothing else (`fits_of_lexeme`), and it
fails exactly on a misfit (`Misfit.scan`, `misfit_of_lexeme`).  So a character that is no gap starts
a lexeme or a misfit, and not both (`exists_misfit_iff`).
-/

namespace Scriptlet

/-! ## Characters

The classes of characters that the scanner asks for are disjoint. -/

/-- No letter stands before the capital `A`. -/
theorem Text.le_toNat_of_isLetter {c : Char} (h : isLetter c = true) : 65 ≤ c.toNat := by
  by_cases hc : c.toNat < 128
  · rw [isLetter, if_pos hc] at h
    have h' : (c.isUpper || c.isLower) = true := h
    rcases Bool.or_eq_true .. |>.mp h' with hu | hl
    · exact UInt32.le_iff_toNat_le.1 (of_decide_eq_true hu).1
    · have hl' : (decide ('a'.val ≤ c.val) && decide (c.val ≤ 'z'.val)) = true := hl
      have hb : 97 ≤ c.toNat :=
        UInt32.le_iff_toNat_le.1 (of_decide_eq_true (Bool.and_eq_true .. |>.mp hl').1)
      omega
  · omega

theorem toNat_of_isDigit {c : Char} (h : c.isDigit = true) : 48 ≤ c.toNat ∧ c.toNat ≤ 57 := by
  have h' : (decide ('0'.val ≤ c.val) && decide (c.val ≤ '9'.val)) = true := h
  obtain ⟨hl, hu⟩ := Bool.and_eq_true .. |>.mp h'
  constructor
  · exact UInt32.le_iff_toNat_le.1 (of_decide_eq_true hl)
  · exact UInt32.le_iff_toNat_le.1 (of_decide_eq_true hu)

/-- A letter is no digit. -/
theorem Text.not_isDigit_of_isLetter {c : Char} (h : isLetter c = true) : c.isDigit = false := by
  have hletter := le_toNat_of_isLetter h
  cases hd : c.isDigit with
  | false => rfl
  | true =>
    have hdigit := toNat_of_isDigit hd
    omega

/-- The blanks of the ASCII range are those up to the space. -/
theorem Text.toNat_of_isBlank {c : Char} (h : isBlank c = true) : c.toNat ≤ 32 ∨ 128 ≤ c.toNat := by
  obtain ⟨r, hr, hlow, hhigh⟩ := inRanges_iff.1 h
  have hranges : ∀ r ∈ blankRanges, r.2 ≤ 32 ∨ 128 ≤ r.1 := by decide
  rcases hranges r hr with hr | hr
  · exact Or.inl (Nat.le_trans hhigh hr)
  · exact Or.inr (Nat.le_trans hr hlow)

/-- A blank is no digit. -/
theorem Text.not_isDigit_of_isBlank {c : Char} (h : isBlank c = true) : c.isDigit = false := by
  have hblank := toNat_of_isBlank h
  cases hd : c.isDigit with
  | false => rfl
  | true =>
    have hdigit := toNat_of_isDigit hd
    omega

/-- Classes whose tables do not overlap have no character in common. -/
theorem Text.inRanges_of_disjoint {ranges others : List (Nat × Nat)} {c : Char}
    (hdisjoint : ∀ r ∈ ranges, ∀ o ∈ others, r.2 < o.1 ∨ o.2 < r.1)
    (h : inRanges ranges c = true) : inRanges others c = false := by
  cases ho : inRanges others c with
  | false => rfl
  | true =>
    obtain ⟨r, hr, hrlow, hrhigh⟩ := inRanges_iff.1 h
    obtain ⟨o, ho, holow, hohigh⟩ := inRanges_iff.1 ho
    have := hdisjoint r hr o ho
    omega

/-- A blank is no letter. -/
theorem Text.not_isLetter_of_isBlank {c : Char} (h : isBlank c = true) : isLetter c = false := by
  by_cases hc : c.toNat < 128
  · have hblank := toNat_of_isBlank h
    cases hl : isLetter c with
    | false => rfl
    | true =>
      have hletter := le_toNat_of_isLetter hl
      omega
  · rw [isLetter, if_neg hc]
    exact inRanges_of_disjoint (by decide +kernel) h

/-- May `c` stand between two tokens? -/
def isGap (c : Char) : Bool := c = '\n' ∨ separators.contains c

/-- What stands between two tokens is blank. -/
theorem isBlank_of_isGap {c : Char} (h : isGap c = true) :
    Text.isBlank c = true ∧ c.toNat ≤ 32 := by
  simp only [isGap, separators, List.contains_eq_mem, decide_eq_true_eq, List.mem_cons,
    List.not_mem_nil, or_false] at h
  rcases h with rfl | rfl | rfl | rfl | rfl <;> decide

/-- No character above the space stands between two tokens. -/
theorem isGap_eq_false {c : Char} (h : 32 < c.toNat) : isGap c = false := by
  cases hgap : isGap c with
  | false => rfl
  | true => exact absurd (isBlank_of_isGap hgap).2 (Nat.not_le_of_lt h)

/-! ## Scanning, gap and token -/

/-- A gap is skipped; only its line breaks are noticed. -/
theorem scan_gap {gap : List Char} (h : ∀ c ∈ gap, isGap c = true) (line : Nat) (s : List Char) :
    scan line (gap ++ s) = scan (line + gap.count '\n') s := by
  induction gap generalizing line with
  | nil => rfl
  | cons c cs ih =>
    have hc := h c List.mem_cons_self
    have hcs : ∀ d ∈ cs, isGap d = true := fun d hd => h d (List.mem_cons_of_mem _ hd)
    rw [List.cons_append, scan]
    by_cases hbreak : c = '\n'
    · rw [if_pos hbreak, ih hcs, hbreak, List.count_cons_self]
      congr 1
      omega
    · have hseparator : separators.contains c = true := by simpa [isGap, hbreak] using hc
      rw [if_neg hbreak, if_pos hseparator, ih hcs, List.count_cons_of_ne hbreak]

/-- Behind a gap a token starts. -/
theorem scan_of_not_isGap {c : Char} (h : isGap c = false) (line : Nat) (cs : List Char) :
    scan line (c :: cs) = lexeme line c cs := by
  have hc : ¬ (c = '\n' ∨ separators.contains c = true) := of_decide_eq_false h
  rw [scan, if_neg fun he => hc (Or.inl he), if_neg fun he => hc (Or.inr he)]

/-- Nothing follows, or a delimiter does. -/
def EndsWord (rest : List Char) : Prop := ∀ c ∈ rest.head?, inWord c = false

/-! ## Lexemes -/

/-- The characters, followed by `rest`, are a token of the given kind. -/
inductive Fits : List Char → Token.Kind → List Char → Prop where
  | numeral {c : Char} {cs rest : List Char} {x : Decimal} (hdigit : c.isDigit = true)
      (hcs : ∀ d ∈ cs, inWord d = true) (hends : EndsWord rest)
      (hread : Decimal.read? (c :: cs) = some x) : Fits (c :: cs) (.number (x.toFloat false)) rest
  | word {c : Char} {cs rest : List Char} (hletter : Text.isLetter c = true)
      (hcs : ∀ d ∈ cs, inWord d = true) (hends : EndsWord rest) :
      Fits (c :: cs) (wordKind (String.ofList (c :: cs))) rest
  | literal {body rest : List Char} (hquote : quoteMark ∉ body) :
      Fits (quoteMark :: (body ++ [quoteMark]))
        (.text (String.ofList (quoteMark :: (body ++ [quoteMark])))) rest
  | symbol {c : Char} {rest : List Char} (hdigit : c.isDigit = false)
      (hletter : Text.isLetter c = false) (hquote : c ≠ quoteMark)
      (hblank : Text.isBlank c = false) : Fits [c] (.symbol c) rest

/-- No token stands at the beginning of the text, for the given reason.  A numeral is refused with all
its characters. -/
inductive Misfit : List Char → Cause → Prop where
  | numeral {c : Char} {cs rest : List Char} (hdigit : c.isDigit = true)
      (hcs : ∀ d ∈ cs, inWord d = true) (hends : EndsWord rest)
      (hread : Decimal.read? (c :: cs) = none) :
      Misfit (c :: (cs ++ rest)) (.malformedNumber (String.ofList (c :: cs)))
  | literal {body : List Char} (hquote : quoteMark ∉ body) :
      Misfit (quoteMark :: body) .unterminatedText
  | blank {c : Char} {rest : List Char} (hblank : Text.isBlank c = true)
      (hgap : isGap c = false) : Misfit (c :: rest) (.unexpectedCharacter c)

/-! ### What is there is read

From the rules to the scanner. -/

/-- A digit starts no gap. -/
theorem isGap_of_isDigit {c : Char} (h : c.isDigit = true) : isGap c = false := by
  have hge := toNat_of_isDigit h
  exact isGap_eq_false (by omega)

theorem isGap_of_isLetter {c : Char} (h : Text.isLetter c = true) : isGap c = false := by
  have hge := Text.le_toNat_of_isLetter h
  exact isGap_eq_false (by omega)

/-- **One token.**  A lexeme is read as its token, and what follows it is left. -/
theorem Fits.scan {text rest : List Char} {kind : Token.Kind} (h : Fits text kind rest)
    (line : Nat) :
    scan line (text ++ rest) = .ok ⟨⟨kind, line⟩, line + text.count '\n', rest⟩ := by
  have hread : ∃ line', Scriptlet.scan line (text ++ rest) = .ok ⟨⟨kind, line⟩, line', rest⟩ := by
    cases h with
    | @numeral c cs _ x hdigit hcs hends hread =>
      -- the numeral ends where the lexeme does, so the whole of it is read as a number
      obtain ⟨htake, hdrop⟩ := takeWhile_append_of_stop hcs hends
      refine ⟨line, ?_⟩
      rw [List.cons_append, scan_of_not_isGap (isGap_of_isDigit hdigit), lexeme, if_pos hdigit]
      unfold Scriptlet.numeral
      rw [htake, hdrop]
      dsimp only
      rw [hread]
    | @word c cs _ hletter hcs hends =>
      obtain ⟨htake, hdrop⟩ := takeWhile_append_of_stop hcs hends
      refine ⟨line, ?_⟩
      rw [List.cons_append, scan_of_not_isGap (isGap_of_isLetter hletter), lexeme, if_pos hletter]
      rw [if_neg (by rw [Text.not_isDigit_of_isLetter hletter]; exact Bool.false_ne_true)]
      unfold Scriptlet.word
      rw [htake, hdrop]
    | @literal body _ hquote =>
      obtain ⟨htake, hdrop⟩ := takeWhile_ne_append hquote rest
      -- a literal may run over several lines
      refine ⟨line + body.count '\n', ?_⟩
      rw [List.cons_append, List.append_assoc, List.singleton_append,
        scan_of_not_isGap (by decide), lexeme, if_neg (by decide), if_neg (by decide), if_pos rfl]
      unfold Scriptlet.literal
      rw [htake, hdrop]
    | @symbol c _ hdigit hletter hquote hblank =>
      have hgap : isGap c = false := by
        cases hg : isGap c with
        | false => rfl
        | true => exact absurd (isBlank_of_isGap hg).1 (by rw [hblank]; exact Bool.false_ne_true)
      refine ⟨line, ?_⟩
      rw [List.singleton_append, scan_of_not_isGap hgap, lexeme]
      simp only [hdigit, hletter, hquote, hblank, if_false, Bool.false_eq_true]
  obtain ⟨line', hscan⟩ := hread
  -- every line break of the lexeme is counted
  have hline := line_of_scan hscan
  rw [List.count_append] at hline
  have heq : line' = line + text.count '\n' := by
    dsimp only at hline
    omega
  rw [hscan, heq]

/-- No lexeme is the end marker. -/
theorem Fits.ne_finish {text rest : List Char} {kind : Token.Kind} (h : Fits text kind rest) :
    kind ≠ .finish := by
  cases h with
  | word hletter hcs hends =>
    unfold wordKind
    split <;> simp
  | _ => simp

/-- A misfit stops the scanner where it stands. -/
theorem Misfit.scan {s : List Char} {cause : Cause} (h : Misfit s cause) (line : Nat) :
    scan line s = .error (.onLine line cause) := by
  cases h with
  | @numeral c cs rest hdigit hcs hends hread =>
    obtain ⟨htake, -⟩ := takeWhile_append_of_stop hcs hends
    rw [scan_of_not_isGap (isGap_of_isDigit hdigit), lexeme, if_pos hdigit]
    unfold Scriptlet.numeral
    rw [htake]
    dsimp only
    rw [hread]
  | @literal body hquote =>
    have hbody : ∀ c ∈ body, decide (c ≠ quoteMark) = true := by
      intro c hc
      apply decide_eq_true
      rintro rfl
      exact hquote hc
    have hdrop : body.dropWhile (· ≠ quoteMark) = [] := by
      rw [← List.append_nil body, List.dropWhile_append_of_pos hbody]
      rfl
    rw [scan_of_not_isGap (by decide), lexeme, if_neg (by decide), if_neg (by decide), if_pos rfl]
    unfold Scriptlet.literal
    rw [hdrop]
  | @blank c rest hblank hgap =>
    -- neither a digit, nor a letter, nor a quote is blank
    have hdigit : c.isDigit = false := Text.not_isDigit_of_isBlank hblank
    have hletter : Text.isLetter c = false := Text.not_isLetter_of_isBlank hblank
    have hquote : c ≠ quoteMark := by
      rintro rfl
      exact absurd hblank (by decide)
    rw [scan_of_not_isGap hgap, lexeme]
    simp only [hdigit, hletter, hquote, hblank, if_false, if_true, Bool.false_eq_true]

/-! ### What is read is there

From the scanner to the rules. -/

/-- The characters of a word behind its first, and what is left of the text. -/
theorem split_inWord (cs : List Char) :
    cs = cs.takeWhile inWord ++ cs.dropWhile inWord ∧
      (∀ d ∈ cs.takeWhile inWord, inWord d = true) ∧ EndsWord (cs.dropWhile inWord) :=
  ⟨List.takeWhile_append_dropWhile.symm, List.all_eq_true.1 List.all_takeWhile,
    eq_false_of_mem_head?_dropWhile⟩

/-- **What is read is a lexeme**, from the first character on. -/
theorem fits_of_lexeme {line : Nat} {c : Char} {cs : List Char} {l : Lexed}
    (h : lexeme line c cs = .ok l) :
    ∃ text, c :: cs = text ++ l.rest ∧ Fits text l.token.kind l.rest ∧ l.token.line = line := by
  -- a word or numeral goes as far as `inWord` does
  obtain ⟨hword, hin, hends⟩ := split_inWord cs
  unfold lexeme at h
  split at h
  · next hdigit =>
    simp only [numeral] at h
    split at h
    · next x hread =>
      cases h
      exact ⟨c :: cs.takeWhile inWord, congrArg _ hword, .numeral hdigit hin hends hread, rfl⟩
    · cases h
  split at h
  · next hletter =>
    cases h
    exact ⟨c :: cs.takeWhile inWord, congrArg _ hword, .word hletter hin hends, rfl⟩
  split at h
  · -- a literal ends at the next quote mark
    next hquote =>
    rcases dropWhile_ne_cases quoteMark cs with ⟨hdrop, -⟩ | ⟨rest, hdrop, hcs⟩
    · simp only [literal, hdrop] at h
      cases h
    · simp only [literal, hdrop] at h
      cases h
      refine ⟨quoteMark :: (cs.takeWhile (· ≠ quoteMark) ++ [quoteMark]), ?_,
        .literal notMem_takeWhile_ne, rfl⟩
      rw [hquote, List.cons_append, List.append_assoc, List.singleton_append]
      exact congrArg _ hcs
  split at h
  · cases h
  · next hdigit hletter hquote hblank =>
    cases h
    refine ⟨[c], rfl, .symbol ?_ ?_ hquote ?_, rfl⟩
    · exact Bool.eq_false_iff.2 hdigit
    · exact Bool.eq_false_iff.2 hletter
    · exact Bool.eq_false_iff.2 hblank

/-- **What is refused is a misfit**, from the first character on. -/
theorem misfit_of_lexeme {line : Nat} {c : Char} {cs : List Char} {e : Error}
    (hgap : isGap c = false) (h : lexeme line c cs = .error e) :
    ∃ cause, Misfit (c :: cs) cause ∧ e = .onLine line cause := by
  obtain ⟨hword, hin, hends⟩ := split_inWord cs
  unfold lexeme at h
  -- the cases of the scanner; two of them can fail by themselves, and one fails always
  split at h
  · next hdigit =>
    simp only [numeral] at h
    split at h
    · cases h
    · next hread =>
      cases h
      refine ⟨_, ?_, rfl⟩
      rw [congrArg (c :: ·) hword]
      exact .numeral hdigit hin hends hread
  split at h
  · cases h
  split at h
  · next hquote =>
    rcases dropWhile_ne_cases quoteMark cs with ⟨hdrop, hnone⟩ | ⟨rest, hdrop, -⟩
    · simp only [literal, hdrop] at h
      cases h
      exact ⟨_, hquote ▸ .literal hnone, rfl⟩
    · simp only [literal, hdrop] at h
      cases h
  split at h
  · next hblank =>
    cases h
    exact ⟨_, .blank hblank hgap, rfl⟩
  · cases h

/-! ### Lexemes and misfits -/

/-- No lexeme stands at the beginning of the text. -/
def NoLexeme (s : List Char) : Prop :=
  ∀ text kind rest, s = text ++ rest → ¬ Fits text kind rest

/-- Where a misfit stands no lexeme does. -/
theorem Misfit.noLexeme {s : List Char} {cause : Cause} (h : Misfit s cause) : NoLexeme s := by
  intro text kind rest hs hfits
  have herror := h.scan 1
  rw [hs, hfits.scan 1] at herror
  cases herror

/-- A character that is no gap starts a lexeme or a misfit, and not both. -/
theorem exists_misfit_iff {c : Char} {cs : List Char} (hgap : isGap c = false) :
    (∃ cause, Misfit (c :: cs) cause) ↔ NoLexeme (c :: cs) := by
  constructor
  · rintro ⟨cause, hmisfit⟩
    exact hmisfit.noLexeme
  · intro hnone
    cases hlexeme : lexeme 1 c cs with
    | ok l =>
      obtain ⟨text, hs, hfits, -⟩ := fits_of_lexeme hlexeme
      exact absurd hfits (hnone _ _ _ hs)
    | error e =>
      obtain ⟨cause, hmisfit, -⟩ := misfit_of_lexeme hgap hlexeme
      exact ⟨cause, hmisfit⟩

end Scriptlet
