import Scriptlet.Proofs.Value.Classified
import Scriptlet.Session.Evaluate

/-!
What a text loses when it is observed.

Observing takes the delimiters off a literal.  Whether a text is a literal is told by its first
character alone, and then one character is taken off either end.  The two agree on every text but one
that starts with a quote and ends with something else: it loses its last character, whatever that is.
No literal is such a text, but a line of the input may be, since no number starts with a quote and so
the line is kept as it stands (`ofText_of_startsQuoted`).

The exact condition is an equivalence, so it gives the failing texts as well as the others.  The
failing ones start with a quote and end with another character.  A program can be given one as a line
of the input, and then it writes less than it was given (`observed_unclosed`).

A text is shown without at most one quote at its front and at most one at its end, if nothing else is
lost.  A text that consists of one quote is a case of its own: both ends are the same character.

Main statement: `observed_text_ends`, with exactly the texts that lose nothing but quotes.
-/

namespace Scriptlet
namespace Value

/-- A text is shown without at most one quote at its front and at most one at its end, and all its
other characters are there. -/
def LosesOnlyQuotes (text shown : List Char) : Prop :=
  ∃ front back, (front = [] ∨ front = [quoteMark]) ∧ (back = [] ∨ back = [quoteMark]) ∧
    text = front ++ (shown ++ back)

variable {s : String}

theorem startsQuoted_of_cons {rest : List Char} (h : s.toList = quoteMark :: rest) :
    startsQuoted s = true := by
  unfold startsQuoted
  rw [h]
  rfl

/-- A text that starts with a quote consists of it alone, or has a last character behind it. -/
theorem toList_of_startsQuoted (h : startsQuoted s = true) :
    s.toList = [quoteMark] ∨ ∃ body c, s.toList = quoteMark :: (body ++ [c]) := by
  obtain ⟨rest, hs⟩ := List.head?_eq_some_iff.1 (of_decide_eq_true h)
  rcases List.eq_nil_or_concat rest with rfl | ⟨body, c, rfl⟩
  · exact Or.inl hs
  · exact Or.inr ⟨body, c, by rw [hs, List.concat_eq_append]⟩

/-- **Both ends go**, and what stands at the second does not matter. -/
theorem observed_of_ends {body : List Char} {c : Char} (h : s.toList = quoteMark :: (body ++ [c])) :
    (text s).observed.toList = body := by
  unfold observed stripEnds
  dsimp only
  rw [if_pos (startsQuoted_of_cons h), h, String.toList_ofList, List.drop_one, List.tail_cons,
    List.dropLast_concat]

theorem observed_of_quoteMark (h : s.toList = [quoteMark]) : (text s).observed.toList = [] := by
  unfold observed stripEnds
  dsimp only
  rw [if_pos (startsQuoted_of_cons h), h]
  rfl

/-- A text that starts with a quote is never a number. -/
theorem ofText_of_startsQuoted (h : startsQuoted s = true) : ofText s = .text s := by
  unfold ofText
  rw [Number.read?_of_startsQuoted h]

/-- **Nothing but quotes is lost** unless a text starts with a quote and ends with something else. -/
theorem losesOnlyQuotes_observed_iff :
    LosesOnlyQuotes s.toList (text s).observed.toList ↔
      (startsQuoted s = true → s.toList.getLast? = some quoteMark) := by
  cases hquoted : startsQuoted s with
  | false =>
    rw [observed_text_of_not_startsQuoted hquoted]
    refine ⟨fun _ h => absurd h Bool.false_ne_true, fun _ => ⟨[], [], Or.inl rfl, Or.inl rfl, ?_⟩⟩
    rw [List.append_nil, List.nil_append]
  | true =>
    rcases toList_of_startsQuoted hquoted with hs | ⟨body, c, hs⟩
    · rw [observed_of_quoteMark hs, hs]
      exact ⟨fun _ _ => rfl, fun _ => ⟨[quoteMark], [], Or.inr rfl, Or.inl rfl, rfl⟩⟩
    · rw [observed_of_ends hs, hs]
      have hlast : (quoteMark :: (body ++ [c])).getLast? = some c := by
        rw [← List.cons_append, List.getLast?_concat]
      rw [hlast, Option.some.injEq]
      constructor
      · rintro ⟨front, back, hfront, hback, heq⟩ -
        -- two characters are gone, so a quote was lost at either end
        have hlength : front.length + back.length = 2 := by
          have hlength := congrArg List.length heq
          simp only [List.length_cons, List.length_append, List.length_nil] at hlength
          omega
        have hfront_le : front.length ≤ 1 := by rcases hfront with rfl | rfl <;> decide
        have hback_le : back.length ≤ 1 := by rcases hback with rfl | rfl <;> decide
        obtain rfl : front = [quoteMark] := hfront.resolve_left fun h => by
          rw [h, List.length_nil] at hlength
          omega
        obtain rfl : back = [quoteMark] := hback.resolve_left fun h => by
          rw [h, List.length_nil] at hlength
          omega
        have htail : [c] = [quoteMark] := List.append_cancel_left (List.tail_eq_of_cons_eq heq)
        exact List.head_eq_of_cons_eq htail
      · intro h
        have hc : c = quoteMark := h rfl
        exact ⟨[quoteMark], [quoteMark], Or.inr rfl, Or.inr rfl, by rw [hc]; rfl⟩

/-- **Observing a text.**  It loses nothing but quotes if and only if it ends with a quote where it
starts with one.  A text that does not start with a quote is observed as it is.  One that does is kept
as a text, also where it is a line of the input, and loses its last character with the quote,
whichever that is. -/
theorem observed_text_ends (s : String) :
    (LosesOnlyQuotes s.toList (text s).observed.toList ↔
      (startsQuoted s = true → s.toList.getLast? = some quoteMark)) ∧
    (startsQuoted s = false → (text s).observed = s) ∧
    ∀ body c, s.toList = quoteMark :: (body ++ [c]) →
      ofText s = .text s ∧ (text s).observed.toList = body := by
  refine ⟨losesOnlyQuotes_observed_iff, observed_text_of_not_startsQuoted, ?_⟩
  intro body c hs
  exact ⟨ofText_of_startsQuoted (startsQuoted_of_cons hs), observed_of_ends hs⟩

/-- A line with an opening quote only loses its last letter when it is read and written. -/
theorem observed_unclosed :
    ¬ LosesOnlyQuotes "\"abc".toList (text "\"abc").observed.toList ∧
    (runSource 20 "fun main() { read(x); write(x) }" .shared "\"abc\n".toUTF8.toList
      .unlimited).output.written.toList = "ab\n".toUTF8.toList := by
  refine ⟨?_, by decide +kernel⟩
  rw [losesOnlyQuotes_observed_iff]
  decide

end Value
end Scriptlet
