import Scriptlet.Grammar.Reader
import Scriptlet.Proofs.Token.Stream

/-!
What a reader has before it, and what the smallest readings do to it.

`Reader.tokens` is the list of tokens from the current one on, the end marker included.  It is not a
field of the reader, which holds the characters that are left: it is what one would get by stepping on
from here.  All that is said about readings of the grammar is said about these lists, so nothing
beyond this module has to do with characters.

A reading is described from two sides.  `Yields x r post` says what a success of `x` comes to; it is
the side of soundness, and it is composed along the readings like `Ends`.  It promises nothing about
readings that fail.  `Sees r b ts` says that the tokens `ts` and no lexical error are before a reader
with the flag `b`; from there the readings of one token are shown to succeed, which is the side of
completeness.  A lexical error further on is excluded for the whole of `ts`, because a reader only
finds out about it when it steps there.

For each reading of one token there is a lemma on either side.  Both say that the token is gone from
the front of the list; the first has it as a consequence of success, the second as a condition for it.
`Passed` is what does not change in between: the flag, and the ending of the stream.
-/

namespace Scriptlet
namespace Reader

/-- All tokens that can be read from the current one on. -/
def tokens (r : Reader) : List Token := r.cursor.stream.delivered

/-- How the tokens end. -/
def ending (r : Reader) : Except Error Token := r.cursor.stream.ending

/-- The current token, given what it is. -/
theorem current_eq {r : Reader} {kind : Token.Kind} (h : r.kind = kind) :
    r.cursor.current = ⟨kind, r.line⟩ := by
  subst h
  rfl

theorem exists_tokens (r : Reader) : ∃ ts, r.tokens = ⟨r.kind, r.line⟩ :: ts :=
  r.cursor.delivered_stream

/-- The tokens of a reader on the end marker. -/
theorem tokens_of_finish {r : Reader} (h : r.kind = .finish) :
    r.tokens = [⟨.finish, r.line⟩] ∧ r.ending = .ok ⟨.finish, r.line⟩ := by
  have hs := Cursor.stream_of_finish h
  rw [tokens, ending, hs, current_eq h]
  exact ⟨rfl, rfl⟩

/-- Two readers on one text, the second of them further on, with the same flag. -/
structure Passed (r s : Reader) : Prop where
  ending : s.ending = r.ending
  resume : s.resume = r.resume

theorem Passed.refl (r : Reader) : Passed r r := ⟨rfl, rfl⟩

theorem Passed.trans {r s t : Reader} (h : Passed r s) (h' : Passed s t) : Passed r t :=
  ⟨h'.ending.trans h.ending, h'.resume.trans h.resume⟩

/-- The reader has exactly these tokens before it, and the flag is `b`. -/
structure Sees (r : Reader) (b : Bool) (ts : List Token) : Prop where
  tokens : r.tokens = ts
  ending : ∃ t, r.ending = .ok t
  resume : r.resume = b

/-- What is seen first is the current token. -/
theorem Sees.current {r : Reader} {b : Bool} {t : Token} {ts : List Token}
    (h : r.Sees b (t :: ts)) : r.kind = t.kind ∧ r.line = t.line := by
  obtain ⟨us, hus⟩ := r.exists_tokens
  have heq := hus.symm.trans h.tokens
  rw [List.cons.injEq] at heq
  exact ⟨congrArg Token.kind heq.1, congrArg Token.line heq.1⟩

/-- There is always a token to be seen. -/
theorem Sees.exists_cons {r : Reader} {b : Bool} {ts : List Token} (h : r.Sees b ts) :
    ∃ t us, ts = t :: us := by
  obtain ⟨us, hus⟩ := r.exists_tokens
  exact ⟨_, us, h.tokens.symm.trans hus⟩

end Reader

namespace Reading

variable {α β : Type}

/-! ## What a success comes to

The side of soundness: nothing is said of readings that fail. -/

/-- If the reading `x` succeeds from state `r`, its result and the state after it satisfy `post`. -/
def Yields (x : Reading α) (r : Reader) (post : α → Reader → Prop) : Prop :=
  ∀ a s, x r = .ok a s → post a s

theorem Yields.pure {a : α} {r : Reader} {post : α → Reader → Prop} (h : post a r) :
    Yields (Pure.pure a) r post := by
  intro b s hb
  cases hb
  exact h

/-- What the first reading comes to is what the second starts from. -/
theorem Yields.bind {x : Reading α} {f : α → Reading β} {r : Reader} {p : α → Reader → Prop}
    {q : β → Reader → Prop} (hx : Yields x r p) (hf : ∀ a s, p a s → Yields (f a) s q) :
    Yields (x >>= f) r q := by
  intro b t hb
  simp only [Bind.bind, EStateM.bind] at hb
  split at hb
  · next a s hr => exact hf a s (hx a s hr) b t hb
  · cases hb

theorem Yields.mono {x : Reading α} {r : Reader} {p q : α → Reader → Prop} (hx : Yields x r p)
    (h : ∀ a s, p a s → q a s) : Yields x r q :=
  fun a s hs => h a s (hx a s hs)

theorem Yields.get_bind {f : Reader → Reading β} {r : Reader} {q : β → Reader → Prop}
    (h : Yields (f r) r q) : Yields (get >>= f) r q := h

/-- A change of the flag or of the log. -/
theorem Yields.modify_bind {g : Reader → Reader} {f : PUnit → Reading β} {r : Reader}
    {q : β → Reader → Prop} (h : Yields (f ⟨⟩) (g r) q) : Yields (modify g >>= f) r q := h

/-- A reading that fails has no success to speak of. -/
theorem Yields.throw {e : Interruption} {r : Reader} {post : α → Reader → Prop} :
    Yields (throw e) r post := by
  intro a s h
  cases h

/-- An error of the grammar is a failure. -/
theorem Yields.fail {line : Nat} {cause : Cause} {r : Reader} {post : α → Reader → Prop} :
    Yields (fail line cause) r post := Yields.throw

theorem Yields.unexpected {expected : String} {r : Reader} {post : α → Reader → Prop} :
    Yields (unexpected expected) r post := Yields.get_bind Yields.fail

/-- A step takes the current token off. -/
theorem Yields.advance {kind : Token.Kind} {r : Reader} (hk : r.kind = kind)
    (hne : kind ≠ .finish) :
    Yields advance r fun _ s => r.tokens = ⟨kind, r.line⟩ :: s.tokens ∧ r.Passed s := by
  refine Yields.get_bind ?_
  have hc : r.cursor.current.kind ≠ .finish := by
    rw [Reader.current_eq hk]
    exact hne
  split
  · next c hadv =>
    intro _ s hs
    cases hs
    refine ⟨?_, ?_, rfl⟩
    · rw [← Reader.current_eq hk]
      exact Cursor.delivered_of_advance hadv hc
    · show c.stream.ending = r.cursor.stream.ending
      rw [Cursor.stream_of_advance hadv hc]
  · exact Yields.throw

/-- The token that was expected was there and is gone. -/
theorem Yields.expect {kind : Token.Kind} {expected : String} {r : Reader}
    (hne : kind ≠ .finish) :
    Yields (expect kind expected) r fun _ s =>
      r.tokens = ⟨kind, r.line⟩ :: s.tokens ∧ r.Passed s := by
  refine Yields.get_bind ?_
  split
  · next hk => exact Yields.advance hk hne
  · exact Yields.unexpected

theorem Yields.symbol {c : Char} {r : Reader} :
    Yields (symbol c) r fun _ s => r.tokens = ⟨.symbol c, r.line⟩ :: s.tokens ∧ r.Passed s :=
  Yields.expect (by simp)

theorem Yields.keyword {word : Keyword} {r : Reader} :
    Yields (keyword word) r fun _ s =>
      r.tokens = ⟨.keyword word, r.line⟩ :: s.tokens ∧ r.Passed s :=
  Yields.expect (by simp)

theorem Yields.identifier {r : Reader} :
    Yields identifier r fun name s =>
      r.tokens = ⟨.identifier name, r.line⟩ :: s.tokens ∧ r.Passed s := by
  refine Yields.get_bind ?_
  split
  · next name hk =>
    refine Yields.bind (Yields.advance hk (by simp)) fun _ s hs => ?_
    exact Yields.pure hs
  · exact Yields.unexpected

/-- A name as a leaf, which has the line of the token. -/
theorem Yields.identifierLeaf {r : Reader} :
    Yields identifierLeaf r fun t s => ∃ name, t = .leaf (.identifier name) r.line ∧
      r.tokens = ⟨.identifier name, r.line⟩ :: s.tokens ∧ r.Passed s := by
  refine Yields.get_bind (Yields.bind Yields.identifier fun name s hs => ?_)
  exact Yields.pure ⟨name, rfl, hs⟩

/-! ## One token that is there is read

The side of completeness: what is before the reader is known, so the reading is computed. -/

/-- A reading that has succeeded is followed by the next one. -/
theorem bind_of_ok {x : Reading α} {f : α → Reading β} {r s : Reader} {a : α}
    (h : x r = .ok a s) : (x >>= f) r = f a s := by
  simp only [Bind.bind, EStateM.bind, h]

/-- Looking at the state leaves it as it is. -/
theorem get_bind_apply (f : Reader → Reading β) (r : Reader) : (get >>= f) r = f r r := rfl

/-- What a change of the reader leads to. -/
theorem modify_bind_apply (g : Reader → Reader) (f : PUnit → Reading β) (r : Reader) :
    (modify g >>= f) r = f ⟨⟩ (g r) := rfl

/-- What is known of a reading that ends, at its result. -/
theorem Ends.of_ok {x : Reading α} {r s : Reader} {a : α} {post : α → Reader → Prop}
    (h : Ends x r post) (hx : x r = .ok a s) : post a s := by
  unfold Ends at h
  rw [hx] at h
  exact h

/-- A step goes through where a token and no lexical error is before the reader; there is less to
come. -/
theorem advance_of_sees {r : Reader} {b : Bool} {t : Token} {ts : List Token}
    (h : r.Sees b (t :: ts)) (hne : t.kind ≠ .finish) :
    ∃ s, advance r = .ok ⟨⟩ s ∧ s.Sees b ts ∧ s.left < r.left := by
  have hk : r.kind ≠ .finish := h.current.1 ▸ hne
  obtain ⟨e, he⟩ := h.ending
  obtain ⟨c, hadv⟩ := Cursor.exists_advance he hk
  have hrun : advance r = .ok ⟨⟩ { r with cursor := c, log := r.log.add (.token c.current) } := by
    unfold advance
    rw [get_bind_apply, hadv]
    rfl
  refine ⟨_, hrun, ⟨?_, ?_, h.resume⟩, Cursor.left_lt_of_advance hadv hk⟩
  · have heq := (Cursor.delivered_of_advance hadv hk).symm.trans h.tokens
    rw [List.cons.injEq] at heq
    exact heq.2
  · refine ⟨e, ?_⟩
    have hst := Cursor.stream_of_advance hadv hk
    rw [← he]
    show c.stream.ending = r.cursor.stream.ending
    rw [hst]

theorem expect_of_sees {r : Reader} {b : Bool} {kind : Token.Kind} {line : Nat} {ts : List Token}
    {expected : String} (h : r.Sees b (⟨kind, line⟩ :: ts)) (hne : kind ≠ .finish) :
    ∃ s, expect kind expected r = .ok ⟨⟩ s ∧ s.Sees b ts ∧ s.left < r.left := by
  obtain ⟨s, hs, hrest⟩ := advance_of_sees h hne
  refine ⟨s, ?_, hrest⟩
  unfold expect
  rw [get_bind_apply, if_pos h.current.1, hs]

theorem symbol_of_sees {r : Reader} {b : Bool} {c : Char} {line : Nat} {ts : List Token}
    (h : r.Sees b (⟨.symbol c, line⟩ :: ts)) :
    ∃ s, symbol c r = .ok ⟨⟩ s ∧ s.Sees b ts ∧ s.left < r.left :=
  expect_of_sees h (by simp)

theorem keyword_of_sees {r : Reader} {b : Bool} {word : Keyword} {line : Nat} {ts : List Token}
    (h : r.Sees b (⟨.keyword word, line⟩ :: ts)) :
    ∃ s, keyword word r = .ok ⟨⟩ s ∧ s.Sees b ts ∧ s.left < r.left :=
  expect_of_sees h (by simp)

theorem identifier_of_sees {r : Reader} {b : Bool} {name : String} {line : Nat} {ts : List Token}
    (h : r.Sees b (⟨.identifier name, line⟩ :: ts)) :
    ∃ s, identifier r = .ok name s ∧ s.Sees b ts ∧ s.left < r.left := by
  obtain ⟨s, hs, hrest⟩ := advance_of_sees h (by simp)
  refine ⟨s, ?_, hrest⟩
  unfold identifier
  rw [get_bind_apply, h.current.1]
  exact bind_of_ok hs

theorem identifierLeaf_of_sees {r : Reader} {b : Bool} {name : String} {line : Nat}
    {ts : List Token} (h : r.Sees b (⟨.identifier name, line⟩ :: ts)) :
    ∃ s, identifierLeaf r = .ok (.leaf (.identifier name) line) s ∧ s.Sees b ts ∧
      s.left < r.left := by
  obtain ⟨s, hs, hrest⟩ := identifier_of_sees h
  refine ⟨s, ?_, hrest⟩
  unfold identifierLeaf
  rw [get_bind_apply, bind_of_ok hs, h.current.2]
  rfl

end Reading
end Scriptlet
