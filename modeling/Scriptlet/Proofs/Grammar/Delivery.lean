import Scriptlet.Proofs.Grammar.Completeness.Program
import Scriptlet.Proofs.Token.Segmentation

/-!
Reading on demand reads the tokens of the text, each of them once.

A reader takes a token when it needs one, so the tokens of a text that is refused are not all read.
Here the tokens that it reports are compared with the stream of the text, which is read without a
grammar.  The invariant (`Reader.Follows`) cuts the stream at the current token: what has been
reported is the part up to it, and what is before the reader is the part from it on.  One step moves
the cut by one token, because no step is made at the end marker.

`Tracks stream x r` says that the reading `x` keeps the invariant, and that where it stops the reason
is the end of the stream or the current token (`Stopped`).  It is composed along the readings like
`Ends` and `Yields`.

The two clauses of `Stopped` are what makes the statement strong enough.  A lexical error is met only
by a step, and then all tokens in front of it have been reported: a reader cannot stop early with an
error that is further on.  An error of the grammar carries the line of the current token, and
everything up to that token has been reported, so nothing behind it has been looked at.  Since
`advance` is the only step and no procedure steps over the end marker, the whole proof comes down to
showing, for every step of every procedure, that the token stepped over is not the end marker: the
procedure has just looked at it and found it to be something else.  That is the `hk` of each case
below.

The grammar then adds nothing of its own.  `TracksExpression` and `TracksBlock` collect the procedures
that call each other, with one lemma for each member and one induction on the fuel that assembles
them.

Main statement: reading a program delivers the stream, or a part of it where the grammar stops the
reading, and neither hides an error of the stream nor brings in another (`delivers_tokens`).
-/

namespace Scriptlet

/-- The token whose reading an event reports. -/
def Event.token? : Event → Option Token
  | .token t => some t
  | _ => none

/-- The tokens whose reading is reported, in order. -/
def Event.tokens (events : List Event) : List Token := events.filterMap Event.token?

/-! ## Lexical errors

What a stream can end in, and on which line. -/

/-- A misfit is a lexical fault. -/
theorem Misfit.stage {s : List Char} {cause : Cause} (h : Misfit s cause) :
    cause.stage = .lexical := by
  cases h <;> rfl

/-- The end marker is not one of the tokens of a stream: it comes with its ending. -/
theorem TokenStream.ne_finish {line : Nat} {s : List Char} :
    ∀ t ∈ (ofText line s).tokens, t.kind ≠ .finish := by
  have hstream := segments_ofText line s
  generalize ofText line s = stream at hstream
  cases hstream with
  | finish h => exact h.ne_finish
  | misfit h hmisfit => exact h.ne_finish

/-- The error in which a stream ends is lexical, and no token stands on a line behind it. -/
theorem TokenStream.error_of_ending {line : Nat} {s : List Char} {e : Error}
    (h : (ofText line s).ending = .error e) :
    e.stage = .lexical ∧ ∃ last, e.line = some last ∧ ∀ t ∈ (ofText line s).tokens, t.line ≤ last := by
  have hstream := segments_ofText line s
  generalize ofText line s = stream at h hstream
  cases hstream with
  | finish => cases h
  | misfit hdone hmisfit =>
    cases h
    exact ⟨hmisfit.stage, _, rfl, hdone.line_le⟩

/-! ## Readers on a stream

Where a reader can be on the stream, and why it may stop there. -/

/-- The stream is cut at the current token: the part up to it has been reported, and the part from it
on is before the reader. -/
structure Reader.Follows (stream : TokenStream) (r : Reader) : Prop where
  delivered : ∃ before, Event.tokens r.log.toList = before ++ [r.cursor.current] ∧
    stream.delivered = before ++ r.tokens
  ending : r.ending = stream.ending

/-- Why a reading on the stream stops: the stream ends in this error and all its tokens have been
reported, or the grammar does not allow the current token. -/
def Reader.Stopped (stream : TokenStream) (e : Error) (r : Reader) : Prop :=
  stream.ending = .error e ∧ Event.tokens r.log.toList = stream.tokens ∨
    r.Follows stream ∧ e.stage = .grammatical ∧ e.line = some r.line

namespace Reader

variable {stream : TokenStream} {r s : Reader}

/-- The tokens that are reported are the first of the stream. -/
theorem Follows.isPrefix (h : r.Follows stream) :
    Event.tokens r.log.toList <+: stream.delivered := by
  obtain ⟨before, hlog, hstream⟩ := h.delivered
  obtain ⟨ts, hts⟩ := r.cursor.delivered_stream
  refine ⟨ts, ?_⟩
  rw [hlog, hstream, tokens, hts, List.append_assoc, List.singleton_append]

/-- The current token is one of the stream. -/
theorem Follows.mem (h : r.Follows stream) : r.cursor.current ∈ stream.delivered := by
  obtain ⟨before, -, hstream⟩ := h.delivered
  obtain ⟨ts, hts⟩ := r.cursor.delivered_stream
  rw [hstream, tokens, hts]
  exact List.mem_append_right _ List.mem_cons_self

/-- On the end marker all of the stream has been reported. -/
theorem Follows.all (h : r.Follows stream) (hk : r.kind = .finish) :
    Event.tokens r.log.toList = stream.delivered ∧ stream.ending = .ok r.cursor.current := by
  obtain ⟨before, hlog, hstream⟩ := h.delivered
  obtain ⟨htokens, hending⟩ := tokens_of_finish hk
  rw [hlog, hstream, htokens, ← h.ending, hending, current_eq hk]
  exact ⟨rfl, rfl⟩

/-- Only the cursor and the tokens of the log matter. -/
theorem Follows.of_eq (h : r.Follows stream) (hcursor : s.cursor = r.cursor)
    (hlog : Event.tokens s.log.toList = Event.tokens r.log.toList) : s.Follows stream := by
  obtain ⟨before, hreported, hstream⟩ := h.delivered
  refine ⟨⟨before, ?_, ?_⟩, ?_⟩
  · rw [hlog, hreported, hcursor]
  · rw [hstream, tokens, tokens, hcursor]
  · rw [← h.ending]
    unfold Reader.ending
    rw [hcursor]

end Reader

namespace Reading

open Reader

variable {α β : Type} {stream : TokenStream} {r : Reader}

/-- On the stream, the reading goes on along it or stops with a reason. -/
def Tracks (stream : TokenStream) (x : Reading α) (r : Reader) : Prop :=
  r.Follows stream →
    match x r with
    | .ok _ s => s.Follows stream
    | .error (.failed e) s => Stopped stream e s
    | .error .outOfFuel _ => True

/-- A reading that takes nothing stays where it is. -/
theorem Tracks.pure {a : α} : Tracks stream (Pure.pure a) r := fun h => h

/-- Of a reading that runs out of fuel nothing is claimed; that none does is shown elsewhere. -/
theorem Tracks.outOfFuel : Tracks stream (throw .outOfFuel : Reading α) r := fun _ => trivial

/-- The second part may make use of what is known of the result of the first. -/
theorem Tracks.bind_of_yields {x : Reading α} {f : α → Reading β} {p : α → Reader → Prop}
    (hx : Tracks stream x r) (hp : Yields x r p) (hf : ∀ a s, p a s → Tracks stream (f a) s) :
    Tracks stream (x >>= f) r := by
  intro h
  have hfirst := hx h
  simp only [Bind.bind, EStateM.bind]
  cases hr : x r with
  | ok a s =>
    rw [hr] at hfirst
    exact hf a s (hp a s hr) hfirst
  | error e s =>
    rw [hr] at hfirst
    cases e with
    | failed e => exact hfirst
    | outOfFuel => trivial

theorem Tracks.bind {x : Reading α} {f : α → Reading β} (hx : Tracks stream x r)
    (hf : ∀ a s, Tracks stream (f a) s) : Tracks stream (x >>= f) r := by
  have hp : Yields x r fun _ _ => True := fun _ _ _ => trivial
  exact hx.bind_of_yields hp fun a s _ => hf a s

/-- A look at the current token is no step. -/
theorem Tracks.get_bind {f : Reader → Reading β} (h : Tracks stream (f r) r) :
    Tracks stream (get >>= f) r := h

/-- The flag does not matter, nor what is reported beside the tokens. -/
theorem Tracks.modify_bind {g : Reader → Reader} {f : PUnit → Reading β}
    (hg : r.Follows stream → (g r).Follows stream) (h : Tracks stream (f ⟨⟩) (g r)) :
    Tracks stream (modify g >>= f) r :=
  fun hr => h (hg hr)

/-! ## The smallest readings

The only step is `advance`; everything else looks at the current token. -/

/-- The grammar stops a reading at the current token. -/
theorem Tracks.fail {cause : Cause} (h : cause.stage = .grammatical) :
    Tracks stream (fail r.line cause : Reading α) r :=
  fun hr => Or.inr ⟨hr, h, rfl⟩

theorem Tracks.unexpected {expected : String} :
    Tracks stream (unexpected expected : Reading α) r := .get_bind (.fail rfl)

/-- **One step** moves the cut by one token, or finds all tokens reported and an error behind them. -/
theorem Tracks.advance (hk : r.kind ≠ .finish) : Tracks stream advance r := by
  intro h
  obtain ⟨before, hlog, hstream⟩ := h.delivered
  unfold Reading.advance
  rw [get_bind_apply]
  -- either the next token is there, and the one before it has been delivered
  cases hadv : r.cursor.advance with
  | ok c =>
    have htokens : r.tokens = r.cursor.current :: c.stream.delivered :=
      Cursor.delivered_of_advance hadv hk
    refine ⟨⟨before ++ [r.cursor.current], ?_, ?_⟩, ?_⟩
    · show Event.tokens (r.log.add (.token c.current)).toList = _
      rw [Log.toList_add, Event.tokens, List.filterMap_append, ← Event.tokens, hlog]
      rfl
    · rw [hstream, htokens, List.append_assoc]
      rfl
    · rw [← h.ending, Reader.ending, Reader.ending, Cursor.stream_of_advance hadv hk]
  -- or there is a fault, and all tokens before it have been
  | error e =>
    have hcursor := Cursor.stream_of_advance_error hadv hk
    have hending : stream.ending = .error e := by
      rw [← h.ending, Reader.ending, hcursor]
    rw [Reader.tokens, hcursor] at hstream
    have hdelivered : stream.delivered = stream.tokens := by
      rw [TokenStream.delivered, hending]
    rw [hdelivered] at hstream
    exact Or.inl ⟨hending, hlog.trans hstream.symm⟩

/-- A token that is expected and is not the end marker. -/
theorem Tracks.expect {kind : Token.Kind} {expected : String} (hne : kind ≠ .finish) :
    Tracks stream (expect kind expected) r := by
  refine .get_bind ?_
  split
  · next hk => exact .advance (hk ▸ hne)
  · exact .unexpected

/-- A symbol, which is not the end marker. -/
theorem Tracks.symbol {c : Char} : Tracks stream (symbol c) r := .expect (by simp)

theorem Tracks.keyword {word : Keyword} : Tracks stream (keyword word) r := .expect (by simp)

theorem Tracks.identifier : Tracks stream identifier r := by
  refine .get_bind ?_
  split
  · next hk => exact .bind (.advance (by simp [hk])) fun _ s => .pure
  · exact .unexpected

theorem Tracks.identifierLeaf : Tracks stream identifierLeaf r :=
  .get_bind (.bind .identifier fun _ _ => .pure)

/-! ## Expressions -/

/-- What is read of an expression with a given fuel is read along the stream. -/
structure TracksExpression (stream : TokenStream) (n : Nat) : Prop where
  expression : ∀ tier r, Tracks stream (expressionAt n tier) r
  chain : ∀ tier left r, Tracks stream (chain n tier left) r
  call : ∀ r, Tracks stream (callArguments n) r
  some : ∀ r, Tracks stream (someArguments n) r

namespace TracksExpression

variable {n : Nat}

/-- An atom steps over a literal, a name or a parenthesis that it has seen. -/
theorem atom_succ (hn : TracksExpression stream n) :
    Tracks stream (expressionAt (n + 1) .atom) r := by
  rw [expressionAt]
  refine .get_bind ?_
  split
  · -- in parentheses
    next hk =>
    refine .bind (.advance (by simp [hk])) fun _ s => ?_
    refine .bind (hn.expression .maximum s) fun inner t => ?_
    exact .bind .symbol fun _ u => .pure
  · next hk => exact .bind (.advance (by simp [hk])) fun _ s => .pure
  · next hk => exact .bind (.advance (by simp [hk])) fun _ s => .pure
  · -- a name, or a call of it
    next hk =>
    refine .bind (.advance (by simp [hk])) fun _ s => .get_bind ?_
    split
    · next hp =>
      refine .bind (.advance (by simp [hp])) fun _ t => ?_
      refine .bind (hn.call t) fun arguments u => ?_
      exact .bind .symbol fun _ v => .pure
    · exact .pure
  · exact .fail rfl

theorem power_succ (hn : TracksExpression stream n) :
    Tracks stream (expressionAt (n + 1) .power) r := by
  rw [expressionAt]
  refine .bind (hn.expression .atom r) fun base s => .get_bind ?_
  split
  · next op hop =>
    refine .bind (.advance (Tier.ne_finish_of_operator? hop)) fun _ t => ?_
    exact .bind (hn.expression .power t) fun exponent u => .pure
  · exact .pure

/-- A chain steps over the sign of its tier. -/
theorem chain_succ (hn : TracksExpression stream n) {tier : Tier} {left : Node} :
    Tracks stream (Reading.chain (n + 1) tier left) r := by
  rw [Reading.chain]
  refine .get_bind ?_
  split
  · next op hop =>
    refine .bind (.advance (Tier.ne_finish_of_operator? hop)) fun _ s => ?_
    exact .bind (hn.expression tier.tighter s) fun right t => hn.chain tier _ t
  · exact .pure

theorem some_succ (hn : TracksExpression stream n) :
    Tracks stream (someArguments (n + 1)) r := by
  rw [someArguments]
  refine .bind (hn.expression .maximum r) fun argument s => .get_bind ?_
  split
  · next hk =>
    refine .bind (.advance (by simp [hk])) fun _ t => ?_
    exact .bind (hn.some t) fun more u => .pure
  · exact .pure

end TracksExpression

/-- Whatever the fuel, the parts of an expression are read along the stream. -/
theorem tracksExpression (stream : TokenStream) (n : Nat) : TracksExpression stream n := by
  induction n with
  | zero => exact ⟨fun _ _ => .outOfFuel, fun _ _ _ => .outOfFuel, fun _ => .outOfFuel,
      fun _ => .outOfFuel⟩
  | succ n ih =>
    -- a tier that groups from the left: an operand, then the rest of the chain
    have grouped : ∀ tier r, Tracks stream
        (do let operand ← expressionAt n tier.tighter; Reading.chain n tier operand) r :=
      fun tier r => .bind (ih.expression tier.tighter r) fun operand s => ih.chain tier operand s
    constructor
    · intro tier r
      cases tier with
      | maximum => exact grouped .maximum r
      | sum => exact grouped .sum r
      | product => exact grouped .product r
      | power => exact ih.power_succ
      | atom => exact ih.atom_succ
    · exact fun tier left r => ih.chain_succ
    · intro r
      rw [callArguments]
      refine .get_bind ?_
      split
      · exact .pure
      · exact ih.some r
    · exact fun r => ih.some_succ

theorem Tracks.expression {n : Nat} : Tracks stream (expression n) r :=
  (tracksExpression stream n).expression .maximum r

/-- A comparison of two characters is read by a step after the first of them. -/
theorem Tracks.comparator? : Tracks stream comparator? r := by
  refine .get_bind ?_
  split
  · exact .pure
  · exact .pure
  · exact .pure
  · next hk =>
    refine .bind (.advance (by simp [hk])) fun _ s => .get_bind ?_
    split
    · exact .pure
    · exact .unexpected
  · exact .pure

theorem Tracks.condition {n : Nat} : Tracks stream (condition n) r := by
  refine .bind .expression fun left s => .get_bind ?_
  -- behind the first symbol of a comparison there is still one to be passed
  have hsign : Yields Reading.comparator? s fun found t => found.isSome → t.kind ≠ .finish :=
    fun found t h => (Ends.comparator?.of_ok h).2
  refine .bind_of_yields .comparator? hsign fun found t ht => ?_
  split
  · next op =>
    refine .bind (.advance (ht rfl)) fun _ u => ?_
    exact .bind .expression fun right v => .pure
  · exact .pure

/-! ## Statements -/

/-- An assignment may stop at what stands where its sign should be. -/
theorem Tracks.assignment {n : Nat} : Tracks stream (assignment n) r := by
  refine .get_bind (.bind .identifierLeaf fun target s => .get_bind ?_)
  split
  · next hk =>
    refine .bind (.advance (by simp [hk])) fun _ t => ?_
    exact .bind .expression fun value u => .pure
  · exact .fail rfl

theorem Tracks.writing {n : Nat} : Tracks stream (writing n) r := by
  refine .get_bind (.bind .keyword fun _ s => .bind .symbol fun _ t => ?_)
  exact .bind .expression fun operand u => .bind .symbol fun _ v => .pure

theorem Tracks.reading : Tracks stream reading r := by
  refine .get_bind (.bind .keyword fun _ s => .bind .symbol fun _ t => ?_)
  exact .bind .identifierLeaf fun target u => .bind .symbol fun _ v => .pure

theorem Tracks.returning {n : Nat} : Tracks stream (returning n) r :=
  .get_bind (.bind .keyword fun _ _ => .bind .expression fun _ _ => .pure)

/-- The word and the condition of a loop or a choice. -/
theorem Tracks.guarded {word : Keyword} {n : Nat} : Tracks stream (guarded word n) r := by
  refine .bind .keyword fun _ s => .bind .symbol fun _ t => ?_
  exact .bind .condition fun test u => .bind .symbol fun _ v => .pure

/-- What is read of a block with a given fuel is read along the stream. -/
structure TracksBlock (stream : TokenStream) (n : Nat) : Prop where
  block : ∀ r, Tracks stream (block n) r
  list : ∀ r, Tracks stream (statementList n) r
  statement : ∀ r, Tracks stream (statement n) r

namespace TracksBlock

variable {n : Nat}

/-- A block; the flag that is set at its end is no token. -/
theorem block_succ (hn : TracksBlock stream n) : Tracks stream (Reading.block (n + 1)) r := by
  rw [Reading.block]
  refine .get_bind (.bind .symbol fun _ s => .get_bind (.bind (hn.list s) fun nodes t => ?_))
  refine .bind .symbol fun _ u => .modify_bind (fun hu => ?_) .pure
  exact hu.of_eq rfl rfl

/-- A list, which steps over its semicolons and clears the flag in between. -/
theorem list_succ (hn : TracksBlock stream n) : Tracks stream (statementList (n + 1)) r := by
  rw [statementList]
  refine .bind (hn.statement r) fun first s => .get_bind ?_
  split
  · next hk =>
    refine .bind (.advance (by simp [hk])) fun _ t => ?_
    exact .bind (hn.list t) fun more u => .pure
  split
  · refine .modify_bind (fun hs => hs.of_eq rfl rfl) ?_
    exact .bind (hn.list _) fun more u => .pure
  · exact .pure

/-- A statement is chosen by its first token; where it starts none nothing is read. -/
theorem statement_succ (hn : TracksBlock stream n) :
    Tracks stream (Reading.statement (n + 1)) r := by
  rw [Reading.statement]
  refine .get_bind ?_
  split
  · exact .bind .assignment fun t s => .pure
  · exact .bind .writing fun t s => .pure
  · exact .bind .reading fun t s => .pure
  · exact .bind .returning fun t s => .pure
  · -- a loop
    exact .bind .guarded fun test s => .bind (hn.block s) fun body t => .pure
  · -- a choice, with or without an alternative
    refine .bind .guarded fun test s => .bind (hn.block s) fun consequence t => .get_bind ?_
    split
    · next hk =>
      refine .bind (.advance (by simp [hk])) fun _ u => ?_
      exact .bind (hn.block u) fun alternative v => .pure
    · exact .pure
  · exact .bind (hn.block r) fun t s => .pure
  · exact .pure

end TracksBlock

/-- Whatever the fuel, the parts of a block are read along the stream. -/
theorem tracksBlock (stream : TokenStream) (n : Nat) : TracksBlock stream n := by
  induction n with
  | zero => exact ⟨fun _ => .outOfFuel, fun _ => .outOfFuel, fun _ => .outOfFuel⟩
  | succ n ih =>
    constructor
    · exact fun r => ih.block_succ
    · exact fun r => ih.list_succ
    · exact fun r => ih.statement_succ

/-! ## Declarations and programs -/

theorem tracks_someParameters (n : Nat) : ∀ r, Tracks stream (someParameters n) r := by
  induction n with
  | zero => exact fun _ => .outOfFuel
  | succ n ih =>
    intro r
    rw [someParameters]
    refine .bind .identifierLeaf fun parameter s => .get_bind ?_
    split
    · next hk =>
      refine .bind (.advance (by simp [hk])) fun _ t => ?_
      exact .bind (ih t) fun more u => .pure
    · exact .pure

/-- The parameters of a declaration, which may be none. -/
theorem Tracks.parameters {n : Nat} : Tracks stream (parameters n) r := by
  refine .get_bind ?_
  split
  · exact tracks_someParameters n r
  · exact .pure

/-- A declaration adds an event to the log that is not of a token. -/
theorem Tracks.declaration {n : Nat} : Tracks stream (declaration n) r := by
  refine .get_bind (.bind .keyword fun _ s => .bind .identifier fun name t => ?_)
  refine .bind .symbol fun _ u => .bind .parameters fun names v => .bind .symbol fun _ w => ?_
  refine .bind ((tracksBlock stream n).block w) fun body x => .get_bind ?_
  refine .modify_bind (fun hx => hx.of_eq rfl ?_) .pure
  -- the event that reports the function is not that of a token
  rw [Log.toList_add, Event.tokens, List.filterMap_append]
  exact List.append_nil _

/-- The declarations up to the first token that starts none. -/
theorem tracks_declarations (n : Nat) : ∀ r, Tracks stream (declarations n) r := by
  induction n with
  | zero => exact fun _ => .outOfFuel
  | succ n ih =>
    intro r
    rw [declarations]
    refine .get_bind ?_
    split
    · exact .bind .declaration fun first s => .bind (ih s) fun more t => .pure
    · exact .pure

/-- **The invariant.**  A program is read along the stream. -/
theorem Tracks.program : Tracks stream program r := by
  refine .get_bind (.bind (tracks_declarations _ r) fun functions s => .get_bind ?_)
  split
  · exact .pure
  · exact .fail rfl

/-- A program that is read ends at the end marker. -/
theorem Yields.program_finish : Yields Reading.program r fun _ s => s.kind = .finish := by
  refine Yields.get_bind ?_
  have hany : Yields (declarations (6 * r.left + 1)) r fun _ _ => True := fun _ _ _ => trivial
  refine Yields.bind hany fun functions s _ => Yields.get_bind ?_
  split
  · next hk => exact Yields.pure hk
  · exact Yields.fail

end Reading

/-! ## Source texts

A reader starts on the first token of the stream, which it has reported. -/

namespace Program

open Reader

/-- Where the reading of a source text starts, the first token has been reported. -/
theorem follows_startReader {source : String} {c : Cursor} (h : Cursor.start source = .ok c) :
    (startReader c).Follows (TokenStream.ofSource source) := by
  rw [← Cursor.stream_of_start h]
  exact ⟨⟨[], rfl, rfl⟩, rfl⟩

/-- **How the reading of a source text ends**, and which tokens it has reported by then. -/
theorem readSource_cases (source : String) :
    let stream := TokenStream.ofSource source
    match readSource source with
    | (.ok _, events) => Event.tokens events = stream.delivered ∧ ∃ t, stream.ending = .ok t
    | (.error e, events) =>
      stream.ending = .error e ∧ Event.tokens events = stream.tokens ∨
        e.stage = .grammatical ∧ Event.tokens events <+: stream.delivered ∧
          ∃ t ∈ stream.delivered, e.line = some t.line := by
  intro stream
  -- the first token is read before the grammar begins
  cases hc : Cursor.start source with
  | error e =>
    have hstream : stream = ⟨[], .error e⟩ := Cursor.ofSource_of_start_error hc
    unfold readSource
    rw [hc, hstream]
    exact Or.inl ⟨rfl, rfl⟩
  | ok c =>
    have hprogram := Reading.Tracks.program (follows_startReader hc)
    cases hr : Reading.program (startReader c) with
    | ok p r =>
      rw [hr] at hprogram
      rw [readSource_of_ok hc hr]
      obtain ⟨hall, hending⟩ := Follows.all hprogram (Reading.Yields.program_finish p r hr)
      exact ⟨hall, _, hending⟩
    | error e r =>
      rw [hr] at hprogram
      cases e with
      | failed e =>
        rw [readSource_of_failed hc hr]
        rcases hprogram with hlexical | ⟨hfollows, hstage, hline⟩
        · exact Or.inl hlexical
        · exact Or.inr ⟨hstage, hfollows.isPrefix, _, hfollows.mem, hline⟩
      | outOfFuel => exact absurd hr Reading.program_ne_outOfFuel

/-- A text that is read as a program has tokens, and they have been reported with the end marker. -/
theorem reported_of_parse {source : String} {p : Program} (h : parse source = .ok p) :
    ∃ ts, tokens source = .ok ts ∧ (∀ t ∈ ts, t.kind ≠ .finish) ∧
      Event.tokens (readSource source).2 = ts ++ [endMarker source] := by
  have hcases := readSource_cases source
  have hread : readSource source = (.ok p, (readSource source).2) := Prod.ext h rfl
  rw [hread] at hcases
  obtain ⟨hevents, t, ht⟩ := hcases
  have ht' := TokenStream.eq_endMarker ht
  refine ⟨(TokenStream.ofSource source).tokens, ?_, TokenStream.ne_finish, ?_⟩
  · rw [tokens_eq_ok_iff, ← ht', ← ht]
  · rw [hevents, TokenStream.delivered, ht, ht']

/-- A text that is refused has a lexical error, with all tokens before it reported, or an error of the
grammar at one of its tokens. -/
theorem reported_of_parse_error {source : String} {e : Error} (h : parse source = .error e) :
    tokens source = .error e ∧ e.stage = .lexical ∧
        Event.tokens (readSource source).2 = (TokenStream.ofSource source).tokens ∨
      e.stage = .grammatical ∧
        Event.tokens (readSource source).2 <+: (TokenStream.ofSource source).delivered ∧
          ∃ t ∈ (TokenStream.ofSource source).delivered, e.line = some t.line := by
  have hcases := readSource_cases source
  have hread : readSource source = (.error e, (readSource source).2) := Prod.ext h rfl
  rw [hread] at hcases
  rcases hcases with ⟨hending, hevents⟩ | hgrammar
  · exact Or.inl ⟨tokens_eq_error_iff.2 hending, (TokenStream.error_of_ending hending).1, hevents⟩
  · exact Or.inr hgrammar

/-- **Reading on demand agrees with reading all tokens.**

* A text that is read as a program has tokens, and they have been reported, each once and in order,
  and then the end marker once.
* A lexical error of the reading is the error of the tokens, and all tokens before it have been
  reported.  Any other error is one of the grammar.
* Where the grammar stops the reading, the tokens reported are the first of those of the text, or of
  those before its lexical error.
* Where the tokens have an error, so has the reading: the same one, or one of the grammar on a line
  that is not behind it. -/
theorem delivers_tokens (source : String) :
    (∀ p, parse source = .ok p → ∃ ts, tokens source = .ok ts ∧ (∀ t ∈ ts, t.kind ≠ .finish) ∧
      Event.tokens (readSource source).2 = ts ++ [endMarker source]) ∧
    (∀ e, parse source = .error e → e.stage = .lexical → tokens source = .error e ∧
      Event.tokens (readSource source).2 = (TokenStream.ofSource source).tokens) ∧
    (∀ e, parse source = .error e → e.stage = .lexical ∨ e.stage = .grammatical) ∧
    (∀ e, parse source = .error e → e.stage = .grammatical →
      (∀ ts, tokens source = .ok ts →
        Event.tokens (readSource source).2 <+: ts ++ [endMarker source]) ∧
      ∀ fault, tokens source = .error fault →
        Event.tokens (readSource source).2 <+: (TokenStream.ofSource source).tokens) ∧
    ∀ fault, tokens source = .error fault → ∃ e, parse source = .error e ∧
      (e = fault ∨ e.stage = .grammatical ∧
        ∃ line last, e.line = some line ∧ fault.line = some last ∧ line ≤ last) := by
  refine ⟨fun p => reported_of_parse, fun e h hstage => ?_, fun e h => ?_, fun e h hstage => ?_,
    fun fault hfault => ?_⟩
  · rcases reported_of_parse_error h with ⟨htokens, -, hevents⟩ | ⟨hstage', -⟩
    · exact ⟨htokens, hevents⟩
    · cases hstage.symm.trans hstage'
  · rcases reported_of_parse_error h with ⟨-, hlexical, -⟩ | ⟨hgrammatical, -⟩
    · exact Or.inl hlexical
    · exact Or.inr hgrammatical
  · rcases reported_of_parse_error h with ⟨-, hstage', -⟩ | ⟨-, hfirst, -⟩
    · cases hstage.symm.trans hstage'
    · refine ⟨fun ts hts => ?_, fun fault hfault => ?_⟩
      · rwa [tokens_eq_ok_iff.1 hts] at hfirst
      · rwa [TokenStream.delivered, tokens_eq_error_iff.1 hfault] at hfirst
  · have hending := tokens_eq_error_iff.1 hfault
    cases hparse : parse source with
    | ok p =>
      obtain ⟨ts, hts, -⟩ := reported_of_parse hparse
      cases hfault.symm.trans hts
    | error e =>
      refine ⟨e, rfl, ?_⟩
      rcases reported_of_parse_error hparse with ⟨htokens, -⟩ | ⟨hstage, -, t, ht, hline⟩
      · exact Or.inl (Except.error.inj (htokens.symm.trans hfault))
      · -- the token at which the grammar stops stands before the fault
        obtain ⟨-, last, hlast, hle⟩ := TokenStream.error_of_ending hending
        rw [TokenStream.delivered, hending] at ht
        exact Or.inr ⟨hstage, t.line, last, hline, hlast, hle t ht⟩

end Program
end Scriptlet
