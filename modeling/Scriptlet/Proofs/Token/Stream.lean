import Scriptlet.Proofs.Separator
import Scriptlet.Token.Cursor

/-!
What a cursor has before it.

A cursor reads one token at a time, and `TokenStream.ofText` reads a text to its end.  The two
agree: `Cursor.stream` is the stream from the current token on, one step of the cursor takes the
first token off it (`stream_of_advance`), and a step fails only where the stream ends in an error
(`exists_advance`).  So a grammar can be stated over lists of tokens and a reader proved to follow
it, without a word about characters.

The end marker closes the list.  Its line is the number of line breaks of the text and one more
(`ending_eq`): every character that is skipped or read is counted once.

The list of tokens and the way it ends are kept apart in a `TokenStream`, since an error behind some
tokens does not take them back: a reader that stops before it never finds out.  `delivered` are the
tokens with the end marker, if it comes to that.

Steps and streams meet in one induction.  A step scans the text behind the current token, and so does
the stream; both come to the same token and the same rest of the text.
-/

namespace Scriptlet

/-! ## Lines -/

/-- A word or a numeral contains no line break. -/
theorem count_dropWhile_inWord (cs : List Char) :
    (cs.dropWhile inWord).count '\n' = cs.count '\n' := by
  induction cs with
  | nil => rfl
  | cons c cs ih =>
    by_cases hc : inWord c
    · have hne : c ≠ '\n' := by
        rintro rfl
        exact absurd hc (by decide)
      rw [List.dropWhile_cons_of_pos hc, ih, List.count_cons_of_ne hne]
    · rw [List.dropWhile_cons_of_neg hc]

/-- A lexeme counts the line breaks in it. -/
theorem line_of_lexeme {line : Nat} {c : Char} {cs : List Char} {l : Lexed} (hc : c ≠ '\n')
    (h : lexeme line c cs = .ok l) :
    l.line + l.rest.count '\n' = line + (c :: cs).count '\n' := by
  rw [List.count_cons_of_ne hc]
  unfold lexeme at h
  split at h
  · -- a numeral
    simp only [numeral] at h
    split at h
    · cases h
      rw [count_dropWhile_inWord]
    · cases h
  split at h
  · -- a word
    cases h
    show line + (cs.dropWhile inWord).count '\n' = _
    rw [count_dropWhile_inWord]
  split at h
  · -- a text literal: the breaks in its body, and those behind it
    rcases dropWhile_ne_cases quoteMark cs with ⟨hdrop, -⟩ | ⟨rest, hdrop, hcs⟩
    · simp only [literal, hdrop] at h
      cases h
    · simp only [literal, hdrop] at h
      cases h
      have hcount := congrArg (List.count '\n') hcs
      rw [List.count_append, List.count_cons_of_ne (by decide)] at hcount
      show line + (cs.takeWhile (· ≠ quoteMark)).count '\n' + rest.count '\n' = _
      omega
  split at h
  · cases h
  · -- a symbol
    cases h
    rfl

/-- Scanning counts every line break once. -/
theorem line_of_scan {line : Nat} {s : List Char} {l : Lexed} (h : scan line s = .ok l) :
    l.line + l.rest.count '\n' = line + s.count '\n' := by
  induction s generalizing line with
  | nil => cases h; rfl
  | cons c cs ih =>
    unfold scan at h
    split at h
    · next hc =>
      have := ih h
      rw [hc, List.count_cons_self]
      omega
    split at h
    · next hc _ =>
      rw [List.count_cons_of_ne hc]
      exact ih h
    · next hc _ => exact line_of_lexeme hc h

/-! ## The stream of a text -/

namespace TokenStream

/-- A text that begins with an error has no tokens. -/
theorem ofText_of_error {line : Nat} {text : List Char} {e : Error}
    (h : scan line text = .error e) : ofText line text = ⟨[], .error e⟩ := by
  rw [ofText]
  split
  · next e' he =>
    rw [h] at he
    cases he
    rfl
  · next l hl =>
    rw [h] at hl
    cases hl

/-- A text that begins with the end marker has none either. -/
theorem ofText_of_finish {line : Nat} {text : List Char} {l : Lexed}
    (h : scan line text = .ok l) (hf : l.token.kind = .finish) :
    ofText line text = ⟨[], .ok l.token⟩ := by
  rw [ofText]
  split
  · next e he =>
    rw [h] at he
    cases he
  · next l' hl =>
    rw [h] at hl
    cases hl
    rw [dif_pos hf]

/-- A text that begins with a token has it and those behind it. -/
theorem ofText_of_token {line : Nat} {text : List Char} {l : Lexed}
    (h : scan line text = .ok l) (hf : l.token.kind ≠ .finish) :
    ofText line text =
      ⟨l.token :: (ofText l.line l.rest).tokens, (ofText l.line l.rest).ending⟩ := by
  rw [ofText]
  split
  · next e he =>
    rw [h] at he
    cases he
  · next l' hl =>
    rw [h] at hl
    cases hl
    rw [dif_neg hf]

/-- One more token in front. -/
theorem delivered_cons (t : Token) (ts : List Token) (ending : Except Error Token) :
    delivered ⟨t :: ts, ending⟩ = t :: delivered ⟨ts, ending⟩ := by
  cases ending <;> rfl

/-- **The end marker.**  A text that is read to its end has it on the line behind all its line
breaks. -/
theorem ending_eq {line : Nat} {text : List Char} {t : Token}
    (h : (ofText line text).ending = .ok t) : t = ⟨.finish, line + text.count '\n'⟩ := by
  fun_induction ofText line text with
  | case1 line text e he => cases h
  | case2 line text l hl hf =>
    cases h
    have hline := line_of_scan hl
    rw [rest_eq_nil_of_scan hl hf, List.count_nil, Nat.add_zero] at hline
    rw [← hline]
    exact congrArg Lexed.token (eq_of_scan_finish hl hf)
  | case3 line text l hl hf following ih =>
    rw [← line_of_scan hl]
    exact ih h

end TokenStream

/-! ## The stream of a cursor -/

namespace Cursor

/-- What a cursor has before it, the current token included.  Behind the end marker is nothing. -/
def stream (c : Cursor) : TokenStream :=
  if c.current.kind = .finish then ⟨[], .ok c.current⟩
  else
    let following := TokenStream.ofText c.line c.rest
    ⟨c.current :: following.tokens, following.ending⟩

/-- At the end marker there is nothing more. -/
theorem stream_of_finish {c : Cursor} (h : c.current.kind = .finish) :
    c.stream = ⟨[], .ok c.current⟩ := by
  rw [stream, if_pos h]

/-- Scanning a text leads to a cursor that has the whole stream of the text before it. -/
theorem ofText_eq_stream {line : Nat} {text : List Char} {l : Lexed}
    (h : scan line text = .ok l) :
    TokenStream.ofText line text = (⟨l.rest, l.line, l.token⟩ : Cursor).stream := by
  by_cases hf : l.token.kind = .finish
  · rw [TokenStream.ofText_of_finish h hf, stream, if_pos hf]
  · rw [TokenStream.ofText_of_token h hf, stream, if_neg hf]

/-- **One step.**  It takes the current token off the stream and leaves the rest. -/
theorem stream_of_advance {c d : Cursor} (h : c.advance = .ok d)
    (hc : c.current.kind ≠ .finish) :
    c.stream = ⟨c.current :: d.stream.tokens, d.stream.ending⟩ := by
  unfold advance at h
  split at h
  · next l hl =>
    cases h
    rw [stream, if_neg hc, ofText_eq_stream hl]
  · cases h

/-- A step that fails: the current token was the last before an error. -/
theorem stream_of_advance_error {c : Cursor} {e : Error} (h : c.advance = .error e)
    (hc : c.current.kind ≠ .finish) : c.stream = ⟨[c.current], .error e⟩ := by
  unfold advance at h
  split at h
  · cases h
  · next e' he =>
    cases h
    rw [stream, if_neg hc, TokenStream.ofText_of_error he]

/-- Where the stream reaches the end marker, each step on the way succeeds. -/
theorem exists_advance {c : Cursor} {t : Token} (h : c.stream.ending = .ok t)
    (hc : c.current.kind ≠ .finish) : ∃ d, c.advance = .ok d := by
  rw [stream, if_neg hc] at h
  cases hs : scan c.line c.rest with
  | error e =>
    rw [TokenStream.ofText_of_error hs] at h
    cases h
  | ok l => exact ⟨⟨l.rest, l.line, l.token⟩, by rw [advance, hs]⟩

/-- The stream starts with the current token. -/
theorem delivered_stream (c : Cursor) : ∃ following, c.stream.delivered = c.current :: following := by
  by_cases hc : c.current.kind = .finish
  · exact ⟨[], by rw [stream_of_finish hc]; rfl⟩
  · rw [stream, if_neg hc, TokenStream.delivered]
    split
    · exact ⟨_, rfl⟩
    · exact ⟨_, rfl⟩

/-- One step, on the list of all tokens that can be read. -/
theorem delivered_of_advance {c d : Cursor} (h : c.advance = .ok d)
    (hc : c.current.kind ≠ .finish) :
    c.stream.delivered = c.current :: d.stream.delivered := by
  rw [stream_of_advance h hc, TokenStream.delivered_cons]

/-- The cursor on the first token of a source text has all of it before it. -/
theorem stream_of_start {source : String} {c : Cursor} (h : start source = .ok c) :
    c.stream = TokenStream.ofSource source := by
  unfold start advance at h
  split at h
  · next l hl =>
    cases h
    exact (ofText_eq_stream hl).symm
  · cases h

/-- Where there is no first token, the stream is nothing but an error. -/
theorem ofSource_of_start_error {source : String} {e : Error} (h : start source = .error e) :
    TokenStream.ofSource source = ⟨[], .error e⟩ := by
  unfold start advance at h
  split at h
  · cases h
  · next e' he =>
    cases h
    exact TokenStream.ofText_of_error he

/-- A text without lexical errors can be started on. -/
theorem exists_start {source : String} {t : Token}
    (h : (TokenStream.ofSource source).ending = .ok t) : ∃ c, start source = .ok c := by
  cases hs : start source with
  | ok c => exact ⟨c, rfl⟩
  | error e =>
    rw [ofSource_of_start_error hs] at h
    cases h

end Cursor

/-! ## All tokens of a source text -/

/-- The end marker of a source text: it stands on the last line. -/
def endMarker (source : String) : Token := ⟨.finish, 1 + source.toList.count '\n'⟩

/-- The token stream of a source text ends in its end marker, if not in an error. -/
theorem TokenStream.eq_endMarker {source : String} {t : Token}
    (h : (TokenStream.ofSource source).ending = .ok t) : t = endMarker source := by
  have := TokenStream.ending_eq h
  rwa [eraseComments, count_eraseCommentsFrom] at this

/-- The tokens of a text are those delivered before the end marker. -/
theorem tokens_eq_ok_iff {source : String} {ts : List Token} :
    tokens source = .ok ts ↔
      TokenStream.ofSource source = ⟨ts, .ok (endMarker source)⟩ := by
  unfold tokens
  cases hs : TokenStream.ofSource source with
  | mk tokens ending =>
    cases ending with
    | error e => simp
    | ok t =>
      have ht : t = endMarker source := TokenStream.eq_endMarker (by rw [hs])
      simp [ht]

/-- A text has a lexical error if its stream ends in one. -/
theorem tokens_eq_error_iff {source : String} {e : Error} :
    tokens source = .error e ↔ (TokenStream.ofSource source).ending = .error e := by
  unfold tokens
  cases hs : TokenStream.ofSource source with
  | mk tokens ending => cases ending <;> simp

end Scriptlet
