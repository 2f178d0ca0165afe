import Scriptlet.Proofs.Token.Lines

/-!
A cursor that is stepped any number of times.

A step can be asked for at any time, also behind the end marker and after a step that failed.  So what
there is to say is about the whole sequence of cursors, `after 0`, `after 1`, …: first it runs through
the token stream, one token a step, and then it stands still, at the end marker or before a fault.
Which of the two it is decides what every further step answers.

Both halves are inductions on the number of steps.  For the first, the stream of a cursor loses its
first token by a step, so the `n`-th cursor has the `n`-th token of the stream, as long as there is
one (`getElem?_delivered`).  For the second, a cursor that one call leaves as it is stays so for ever
(`after_of_next_eq`).  The number of the last token, `lastStep`, is where they meet.  That a call at
the end marker leaves the cursor needs that it has come there by a step (`Arrived`): then there is
nothing left but what is skipped, and the line is that of the end.

Where the cursor reads on is an offset in the text, counted in bytes.  The invariant is that what is
left to read is a suffix of the text (`Within.after`), so the offset is where a character starts, and
a token takes at least one character, so the offset grows.

The loop that collects all tokens is one more recursion on the number of calls (`collect`).  It comes
to the list of tokens exactly where the stream ends in the end marker, and to the fault where it ends
in one.

Main statement: `Cursor.stepping`, with all of this as the structure `Cursor.Steps`.
-/

namespace Scriptlet

/-- How many bytes a text takes up. -/
def byteCount (s : List Char) : Nat := (String.ofList s).utf8ByteSize

theorem byteCount_append (s t : List Char) : byteCount (s ++ t) = byteCount s + byteCount t := by
  unfold byteCount
  rw [String.ofList_append, String.utf8ByteSize_append]

theorem byteCount_pos {s : List Char} (h : s ≠ []) : 0 < byteCount s := by
  obtain ⟨c, cs, rfl⟩ := List.exists_cons_of_ne_nil h
  have hsplit : byteCount (c :: cs) = byteCount [c] + byteCount cs := byteCount_append [c] cs
  have hchar : byteCount [c] = c.utf8Size := by simp [byteCount]
  have hsize := c.utf8Size_pos
  omega

namespace Cursor

/-! ## Calls

A call that fails leaves the cursor where it is, so there is a cursor after any number of calls. -/

/-- The cursor after a call: where no step can be made it stays as it is. -/
def next (c : Cursor) : Cursor :=
  match c.advance with
  | .ok d => d
  | .error _ => c

/-- The cursor after `n` calls. -/
def after (c : Cursor) : Nat → Cursor
  | 0 => c
  | n + 1 => (c.after n).next

/-- The loop that reads all tokens, or `none` where `n` rounds do not suffice for it. -/
def collect : Nat → Cursor → Option (Except Error (List Token))
  | 0, _ => none
  | n + 1, c =>
    if c.current.kind = .finish then some (.ok [])
    else
      match c.advance with
      | .error e => some (.error e)
      | .ok d => (collect n d).map fun result => result.map (c.current :: ·)

variable {source : String} {c d : Cursor} {e : Error} {n m : Nat}

theorem next_of_ok (h : c.advance = .ok d) : c.next = d := by
  unfold next
  rw [h]

theorem next_of_error (h : c.advance = .error e) : c.next = c := by
  unfold next
  rw [h]

/-! ## Standing still

At the end marker and before a fault every further call does the same as the last. -/

/-- Behind the end marker a step leads nowhere. -/
theorem advance_of_finish (h : c.advance = .ok d) (hfinish : d.current.kind = .finish) :
    d.advance = .ok d := by
  unfold advance at h
  split at h
  · next l hl =>
    cases h
    have heq := eq_of_scan_finish hl hfinish
    rw [heq]
    rfl
  · cases h

/-- The cursor has come from somewhere by a step. -/
def Arrived (d : Cursor) : Prop := ∃ c : Cursor, c.advance = .ok d

/-- A call leaves a cursor that has come from somewhere. -/
theorem Arrived.next (h : c.Arrived) : c.next.Arrived := by
  cases hstep : c.advance with
  | ok d =>
    rw [next_of_ok hstep]
    exact ⟨c, hstep⟩
  | error e =>
    rw [next_of_error hstep]
    exact h

theorem Arrived.after (h : c.Arrived) : ∀ n, (c.after n).Arrived
  | 0 => h
  | n + 1 => (h.after n).next

/-- A cursor that does not move by one call does not move by more. -/
theorem after_of_next_eq (h : (c.after n).next = c.after n) (hle : n ≤ m) :
    c.after m = c.after n := by
  induction hle with
  | refl => rfl
  | step _ ih =>
    show (c.after _).next = _
    rw [ih, h]

/-- **At the end marker** every further call succeeds and changes nothing. -/
theorem after_of_finish (hc : c.Arrived) (h : (c.after n).current.kind = .finish) (hle : n ≤ m) :
    c.after m = c.after n ∧ (c.after m).advance = .ok (c.after m) := by
  obtain ⟨b, hb⟩ := hc.after n
  have hstay := advance_of_finish hb h
  have heq := after_of_next_eq (next_of_ok hstay) hle
  exact ⟨heq, by rw [heq, hstay]⟩

/-- **Before a fault** every further call fails as the first did, and changes nothing. -/
theorem after_of_error (h : (c.after n).advance = .error e) (hle : n ≤ m) :
    c.after m = c.after n ∧ (c.after m).advance = .error e := by
  have heq := after_of_next_eq (next_of_error h) hle
  exact ⟨heq, by rw [heq, h]⟩

/-! ## The stream, step by step

As long as there are tokens, each call goes on to the next. -/

/-- A cursor that has more than its own token before it can go on. -/
theorem exists_advance_of_length (h : 1 < c.stream.delivered.length) :
    c.current.kind ≠ .finish ∧ ∃ d, c.advance = .ok d := by
  have hkind : c.current.kind ≠ .finish := by
    intro hfinish
    rw [stream_of_finish hfinish] at h
    exact absurd h (by simp [TokenStream.delivered])
  refine ⟨hkind, ?_⟩
  cases hstep : c.advance with
  | ok d => exact ⟨d, rfl⟩
  | error e =>
    rw [stream_of_advance_error hstep hkind] at h
    exact absurd h (by simp [TokenStream.delivered])

/-- **`n` steps** take `n` tokens off the stream, as long as there are more. -/
theorem stream_after (c : Cursor) : ∀ {n : Nat}, n < c.stream.delivered.length →
    (c.after n).stream.delivered = c.stream.delivered.drop n ∧
      (c.after n).stream.ending = c.stream.ending
  | 0, _ => ⟨rfl, rfl⟩
  | n + 1, hn => by
    obtain ⟨hdelivered, hending⟩ := stream_after c (Nat.lt_of_succ_lt hn)
    -- there is more than one token left, so the step succeeds
    have hlength : 1 < (c.after n).stream.delivered.length := by
      rw [hdelivered, List.length_drop]
      omega
    obtain ⟨hkind, d, hstep⟩ := exists_advance_of_length hlength
    have hnext : c.after (n + 1) = d := next_of_ok hstep
    rw [hnext]
    constructor
    · have hcons := delivered_of_advance hstep hkind
      rw [hdelivered] at hcons
      have htail := congrArg List.tail hcons
      rw [List.tail_drop, List.tail_cons] at htail
      exact htail.symm
    · rw [← hending, stream_of_advance hstep hkind]

/-- Before the stream is through, every call succeeds and leaves a token. -/
theorem exists_advance_after (h : n + 1 < c.stream.delivered.length) :
    (c.after n).current.kind ≠ .finish ∧ ∃ d, (c.after n).advance = .ok d := by
  apply exists_advance_of_length
  rw [(stream_after c (Nat.lt_of_succ_lt h)).1, List.length_drop]
  omega

/-- A cursor whose own token is the last that can be read stands still, and the way the stream ends is
the answer to every call. -/
theorem advance_of_last (hc : c.Arrived) (h : c.stream.delivered.length = 1) :
    c.current.kind = .finish ∧ c.advance = .ok c ∨
      c.current.kind ≠ .finish ∧ ∃ e, c.advance = .error e ∧ c.stream.ending = .error e := by
  by_cases hfinish : c.current.kind = .finish
  · obtain ⟨b, hb⟩ := hc
    exact Or.inl ⟨hfinish, advance_of_finish hb hfinish⟩
  · refine Or.inr ⟨hfinish, ?_⟩
    cases hstep : c.advance with
    | ok d =>
      -- the stream of `d` has a token of its own
      obtain ⟨following, hd⟩ := delivered_stream d
      rw [delivered_of_advance hstep hfinish, hd] at h
      exact absurd h (by simp)
    | error e => exact ⟨e, rfl, by rw [stream_of_advance_error hstep hfinish]⟩

/-- The number of the call after which the cursor stands still. -/
def lastStep (c : Cursor) : Nat := c.stream.delivered.length - 1

/-- The last token of a stream is one of it. -/
theorem lastStep_lt (c : Cursor) : c.lastStep < c.stream.delivered.length := by
  obtain ⟨following, hdelivered⟩ := delivered_stream c
  unfold lastStep
  rw [hdelivered, List.length_cons]
  omega

/-- After that call nothing is left of the stream but the current token. -/
theorem length_lastStep (c : Cursor) : (c.after c.lastStep).stream.delivered.length = 1 := by
  have hlt := c.lastStep_lt
  rw [(stream_after c hlt).1, List.length_drop]
  unfold lastStep at hlt ⊢
  omega

/-- Once the stream is through, the cursor stands still. -/
theorem next_after_lastStep (hc : c.Arrived) :
    (c.after c.lastStep).next = c.after c.lastStep := by
  rcases advance_of_last (hc.after _) c.length_lastStep with ⟨-, hstay⟩ | ⟨-, e, herror, -⟩
  · exact next_of_ok hstay
  · exact next_of_error herror

/-- **Any number of steps.**  The calls behind the last token of the stream change nothing. -/
theorem after_min (hc : c.Arrived) (n : Nat) : c.after n = c.after (min n c.lastStep) := by
  rcases Nat.le_total n c.lastStep with hle | hle
  · rw [Nat.min_eq_left hle]
  · rw [Nat.min_eq_right hle]
    exact after_of_next_eq (next_after_lastStep hc) hle

/-- The cursor after `n` calls has the token number `n`. -/
theorem getElem?_delivered (h : n < c.stream.delivered.length) :
    c.stream.delivered[n]? = some (c.after n).current := by
  obtain ⟨following, hcurrent⟩ := delivered_stream (c.after n)
  rw [(stream_after c h).1] at hcurrent
  rw [← List.head?_drop, hcurrent]
  rfl

/-- A call fails if the stream is through by then and ends in an error, and then with this error. -/
theorem advance_after_eq_error_iff (hc : c.Arrived) :
    (c.after n).advance = .error e ↔
      c.stream.delivered.length ≤ n + 1 ∧ c.stream.ending = .error e := by
  -- before the last step every step succeeds
  by_cases hn : n + 1 < c.stream.delivered.length
  · obtain ⟨-, d, hstep⟩ := exists_advance_after hn
    constructor
    · intro herror
      rw [hstep] at herror
      cases herror
    · rintro ⟨hle, -⟩
      omega
  · -- from there on the cursor stays where it is, at the end marker or before the fault
    have hlast : c.lastStep ≤ n := by
      unfold lastStep
      omega
    have hending := (stream_after c c.lastStep_lt).2
    rw [after_min hc, Nat.min_eq_right hlast, ← hending]
    rcases advance_of_last (hc.after _) c.length_lastStep with
      ⟨hfinish, hstay⟩ | ⟨-, e', herror, hending'⟩
    · rw [hstay, stream_of_finish hfinish]
      simp
    · rw [herror, hending', Except.error.injEq, Except.error.injEq]
      constructor
      · intro h
        exact ⟨by omega, h⟩
      · exact fun h => h.2

/-! ## All tokens -/

/-- Where the stream ends with its end marker, its tokens are the current ones of as many steps. -/
theorem tokens_eq_map {t : Token} (hending : c.stream.ending = .ok t)
    (hlength : c.stream.delivered.length = n + 1) :
    c.stream.tokens = (List.range n).map fun i => (c.after i).current := by
  have hdelivered : c.stream.delivered = c.stream.tokens ++ [t] := by
    unfold TokenStream.delivered
    rw [hending]
  have htokens : c.stream.tokens.length = n := by
    rw [hdelivered, List.length_append, List.length_singleton] at hlength
    omega
  apply List.ext_getElem?
  intro i
  by_cases hi : i < n
  · have hcurrent := getElem?_delivered (c := c) (n := i) (by omega)
    rw [hdelivered, List.getElem?_append_left (by omega)] at hcurrent
    rw [hcurrent, List.getElem?_map, List.getElem?_range hi]
    rfl
  · rw [List.getElem?_eq_none (by omega), List.getElem?_eq_none (by simp; omega)]

/-- The first end marker comes behind all tokens of the stream. -/
theorem length_of_first_finish (hc : c.Arrived) (hfinish : (c.after n).current.kind = .finish)
    (hfirst : ∀ i < n, (c.after i).current.kind ≠ .finish) :
    c.stream.delivered.length = n + 1 ∧ ∃ t, c.stream.ending = .ok t := by
  have hlt := c.lastStep_lt
  have hle : c.lastStep ≤ n := by
    by_contra hgt
    unfold lastStep at hgt
    exact (exists_advance_after (by omega)).1 hfinish
  have heq : c.lastStep = n := by
    by_contra hne
    have hlast := after_min hc n
    rw [Nat.min_eq_right hle] at hlast
    exact hfirst c.lastStep (by omega) (by rw [← hlast, hfinish])
  constructor
  · unfold lastStep at heq hlt
    omega
  · rw [← (stream_after c hlt).2, heq, stream_of_finish hfinish]
    exact ⟨_, rfl⟩

/-- **Reaching the end marker** is what it takes to read all tokens, and these are the current ones
before it. -/
theorem tokens_eq_ok_iff_reaches (hc : c.Arrived) (hstream : c.stream = TokenStream.ofSource source)
    {ts : List Token} :
    tokens source = .ok ts ↔ ∃ n, (c.after n).current.kind = .finish ∧
      (∀ i < n, (c.after i).current.kind ≠ .finish) ∧
        ts = (List.range n).map fun i => (c.after i).current := by
  rw [tokens_eq_ok_iff, ← hstream]
  constructor
  · intro hts
    have hending : c.stream.ending = .ok (endMarker source) := by rw [hts]
    have hlength : c.stream.delivered.length = ts.length + 1 := by
      rw [hts]
      simp [TokenStream.delivered]
    -- as many steps as there are tokens lead to the end marker, and not fewer
    refine ⟨ts.length, ?_, fun i hi => (exists_advance_after (by omega)).1, ?_⟩
    · have hlast := getElem?_delivered (c := c) (n := ts.length) (by omega)
      rw [hts] at hlast
      simp only [TokenStream.delivered, List.getElem?_concat_length, Option.some.injEq] at hlast
      rw [← hlast]
      rfl
    · rw [← tokens_eq_map hending hlength, hts]
  · -- the first end marker is the last of what is delivered
    rintro ⟨n, hfinish, hfirst, rfl⟩
    obtain ⟨hlength, t, hending⟩ := length_of_first_finish hc hfinish hfirst
    have hmarker : t = endMarker source := TokenStream.eq_endMarker (hstream ▸ hending)
    rw [← tokens_eq_map hending hlength, ← hmarker, ← hending]

/-- **The loop ends**: as many rounds as there can be tokens are enough, and it comes to what the
whole stream comes to. -/
theorem collect_eq (h : c.left < n) :
    collect n c = some (match c.stream.ending with
      | .ok _ => .ok c.stream.tokens
      | .error e => .error e) := by
  induction n generalizing c with
  | zero => exact absurd h (Nat.not_lt_zero _)
  | succ n ih =>
    unfold collect
    by_cases hfinish : c.current.kind = .finish
    · rw [if_pos hfinish, stream_of_finish hfinish]
    · rw [if_neg hfinish]
      cases hstep : c.advance with
      | error e => rw [stream_of_advance_error hstep hfinish]
      | ok d =>
        have hleft := left_lt_of_advance hstep hfinish
        dsimp only
        rw [ih (by omega), stream_of_advance hstep hfinish]
        cases d.stream.ending <;> rfl

/-! ## Offsets

Where in the text a cursor reads on. -/

/-- Where the cursor reads on: the offset of the rest of the text, counted in bytes. -/
def offset (source : String) (c : Cursor) : Nat :=
  byteCount (eraseComments source.toList) - byteCount c.rest

/-- What is left to read is the end of the text. -/
def Within (source : String) (c : Cursor) : Prop := c.rest <:+ eraseComments source.toList

/-- A cursor that has read nothing has the whole text before it. -/
theorem within_before (source : String) : Within source (before source) :=
  List.suffix_refl (eraseComments source.toList)

/-- **One step** stays within the text, and the offset grows by what is taken. -/
theorem Within.of_advance (h : Within source c) (hstep : c.advance = .ok d) :
    Within source d ∧ ∃ taken, c.rest = taken ++ d.rest ∧
      offset source d = offset source c + byteCount taken ∧
        (d.current.kind ≠ .finish → taken ≠ []) := by
  -- what is taken is the gap and the text of the token
  obtain ⟨gap, text, hmoves⟩ := moves_of_advance hstep
  have hrest : c.rest = (gap ++ text) ++ d.rest := by rw [hmoves.rest, List.append_assoc]
  obtain ⟨passed, hpassed⟩ := h
  have hwithin : Within source d := by
    refine ⟨passed ++ (gap ++ text), ?_⟩
    rw [List.append_assoc, ← hrest, hpassed]
  refine ⟨hwithin, gap ++ text, hrest, ?_, ?_⟩
  · -- the offset is counted from behind: what is left is shorter by what was taken
    have htext := congrArg byteCount hpassed
    rw [hrest] at htext
    unfold offset
    rw [← htext, hrest]
    simp only [byteCount_append]
    omega
  · -- and only the end marker is without text
    intro hkind hnil
    have hfits := hmoves.token.resolve_left fun hfinish => hkind hfinish.1
    exact hfits.ne_nil (List.append_eq_nil_iff.1 hnil).2

/-- A step goes on in the same text, and so do any number of them. -/
theorem Within.after (h : Within source c) : ∀ n, Within source (c.after n)
  | 0 => h
  | n + 1 => by
    have hn := h.after n
    show Within source (c.after n).next
    cases hstep : (c.after n).advance with
    | ok d =>
      rw [next_of_ok hstep]
      exact (hn.of_advance hstep).1
    | error e =>
      rw [next_of_error hstep]
      exact hn

theorem within_of_start (h : start source = .ok c) : Within source c :=
  ((within_before source).of_advance h).1

/-- At its offset a character of the text starts, or the text ends there. -/
theorem Within.slice (h : Within source c) :
    ∃ passed, eraseComments source.toList = passed ++ c.rest ∧ byteCount passed = offset source c := by
  obtain ⟨passed, hpassed⟩ := h
  refine ⟨passed, hpassed.symm, ?_⟩
  unfold offset
  rw [← hpassed, byteCount_append]
  omega

/-- An offset is where a character starts, since what stands before it is a text. -/
theorem Within.isValid (h : Within source c) :
    (⟨offset source c⟩ : String.Pos.Raw).IsValid (String.ofList (eraseComments source.toList)) := by
  obtain ⟨passed, htext, hoffset⟩ := h.slice
  rw [String.Pos.Raw.isValid_iff_exists_append]
  refine ⟨String.ofList passed, String.ofList c.rest, ?_, ?_⟩
  · rw [htext, String.ofList_append]
  · rw [← hoffset]
    rfl

/-! ## Every number of steps -/

/-- How the calls from the cursor `c` on go through a source text. -/
structure Steps (source : String) (c : Cursor) : Prop where
  /-- The current tokens are those of the stream in order, and then the last of them for ever. -/
  current : ∀ n, (TokenStream.ofSource source).delivered[
    min n ((TokenStream.ofSource source).delivered.length - 1)]? = some (c.after n).current
  /-- The text goes on at the offset with what is left to read. -/
  slice : ∀ n, ∃ passed, eraseComments source.toList = passed ++ (c.after n).rest ∧
    byteCount passed = offset source (c.after n)
  boundary : ∀ n, (⟨offset source (c.after n)⟩ : String.Pos.Raw).IsValid
    (String.ofList (eraseComments source.toList))
  bound : ∀ n, offset source (c.after n) ≤ byteCount (eraseComments source.toList)
  /-- The offset grows by the characters that a step takes. -/
  taken : ∀ n d, (c.after n).advance = .ok d → ∃ taken, (c.after n).rest = taken ++ d.rest ∧
    offset source d = offset source (c.after n) + byteCount taken
  progress : ∀ n d, (c.after n).advance = .ok d → d.current.kind ≠ .finish →
    offset source (c.after n) < offset source d
  finish : ∀ n m, (c.after n).current.kind = .finish → n ≤ m →
    c.after m = c.after n ∧ (c.after m).advance = .ok (c.after n)
  fault : ∀ n m e, (c.after n).advance = .error e → n ≤ m →
    c.after m = c.after n ∧ (c.after m).advance = .error e
  /-- A call fails once the stream is through and ends in an error. -/
  fails : ∀ n e, (c.after n).advance = .error e ↔
    (TokenStream.ofSource source).delivered.length ≤ n + 1 ∧ tokens source = .error e
  /-- All tokens are read exactly if the end marker is reached; they are the current ones before it.
  -/
  reaches : ∀ ts, tokens source = .ok ts ↔ ∃ n, (c.after n).current.kind = .finish ∧
    (∀ i < n, (c.after i).current.kind ≠ .finish) ∧
      ts = (List.range n).map fun i => (c.after i).current
  /-- The loop that reads all tokens ends. -/
  loop : ∀ n, c.left < n → collect n c = some (tokens source)

/-- A cursor on the first token of a source text goes through all of it. -/
theorem steps_of_start (h : start source = .ok c) : Steps source c where
  current n := by
    rw [after_min ⟨_, h⟩, ← stream_of_start h]
    exact getElem?_delivered (Nat.lt_of_le_of_lt (Nat.min_le_right _ _) c.lastStep_lt)
  slice n := ((within_of_start h).after n).slice
  boundary n := ((within_of_start h).after n).isValid
  bound n := Nat.sub_le _ _
  taken n d hstep := by
    obtain ⟨-, taken, hrest, hoffset, -⟩ := ((within_of_start h).after n).of_advance hstep
    exact ⟨taken, hrest, hoffset⟩
  progress n d hstep hkind := by
    obtain ⟨-, taken, -, hoffset, htaken⟩ := ((within_of_start h).after n).of_advance hstep
    have hpos := byteCount_pos (htaken hkind)
    omega
  finish n m hfinish hle := by
    obtain ⟨heq, hstay⟩ := after_of_finish ⟨_, h⟩ hfinish hle
    exact ⟨heq, heq ▸ hstay⟩
  fault n m e hfault hle := after_of_error hfault hle
  fails n e := by
    rw [advance_after_eq_error_iff ⟨_, h⟩, tokens_eq_error_iff, stream_of_start h]
  reaches ts := tokens_eq_ok_iff_reaches ⟨_, h⟩ (stream_of_start h)
  loop n hleft := by
    rw [collect_eq hleft, stream_of_start h]
    rfl

/-- **Stepping through a source text.**  A text that has no first token has no tokens, only its
error. In any other the current tokens are those of the text in order, and the offset grows with
every one of them and always lies between two characters of the text.  At the end marker every
further call succeeds and changes nothing, and where a call fails every further one fails alike. 
All tokens are read exactly if the end marker is reached; so the loop that reads them ends on every
text. -/
theorem stepping (source : String) :
    (∀ e, start source = .error e → tokens source = .error e) ∧
    ∀ c, start source = .ok c → Steps source c := by
  refine ⟨fun e he => ?_, fun c hc => steps_of_start hc⟩
  rw [tokens_eq_error_iff, ofSource_of_start_error he]

/-- The first letter takes two bytes, a literal runs over two lines, and the last step finds a
fault. -/
theorem stepping_bytes :
    start "é \"a\nb\" # c\n 5x" =
      .ok ⟨[' ', '"', 'a', '\n', 'b', '"', ' ', '\n', ' ', '5', 'x'], 1, ⟨.identifier "é", 1⟩⟩ ∧
    Steps "é \"a\nb\" # c\n 5x"
      ⟨[' ', '"', 'a', '\n', 'b', '"', ' ', '\n', ' ', '5', 'x'], 1, ⟨.identifier "é", 1⟩⟩ :=
  ⟨by decide +kernel, (stepping _).2 _ (by decide +kernel)⟩

end Cursor
end Scriptlet
