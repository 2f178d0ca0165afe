import Scriptlet.Proofs.Session.Consumption
import Scriptlet.Proofs.Text.ByteOrder

/-!
A line that is written and read again.

The bytes of a text are text again, and the byte that ends a line is in them only where the character
that ends a line is in the text: every other byte of ten stands for itself, and the bytes of a longer
character are all beyond it.  So a text on one line is written as one line, this line is found again
in whatever follows it, and without its line break it is the text that was written.

The encoding of a character is looked at byte by byte.  It has one byte if the character is below 128,
and this byte is the character; a longer one has a first byte of at least 192 and then bytes between
128 and 191.  So ten occurs only as itself.  Reading the bytes as text again is the library's own
inverse of the encoding.

Main statement: `Request.answer_read_line`.
-/

namespace Scriptlet
namespace Text

theorem toNat_ofNat_of_lt {n : Nat} (h : n < 256) : (UInt8.ofNat n).toNat = n := by
  rw [UInt8.toNat_ofNat', Nat.mod_eq_of_lt h]

/-- The bytes that follow the first one are no characters of their own. -/
theorem le_of_mem_continuation {k n : Nat} {b : UInt8} (h : b ∈ continuation k n) :
    128 ≤ b.toNat := by
  induction k generalizing n with
  | zero => cases h
  | succ k ih =>
    rcases List.mem_append.1 h with h | h
    · exact ih h
    · rw [List.mem_singleton.1 h, toNat_ofNat_of_lt (by omega)]
      omega

/-- A first byte that is small is the character. -/
theorem eq_of_leading {n : Nat} (h : leading n < 128) : leading n = n := by
  unfold leading at h ⊢
  split at h
  · next hsmall => exact if_pos hsmall
  · split at h
    · omega
    · split at h <;> omega

theorem lineBreak_notMem_utf8EncodeChar {c : Char} (h : c ≠ '\n') :
    lineBreak ∉ String.utf8EncodeChar c := by
  rw [utf8EncodeChar_eq, List.mem_cons, not_or]
  constructor
  · intro hfirst
    have hten := congrArg UInt8.toNat hfirst
    rw [toNat_ofNat_of_lt (leading_lt (lt_unicode c))] at hten
    have hleading : leading c.val.toNat = 10 := hten.symm
    rw [eq_of_leading (by omega)] at hleading
    exact h (Char.toNat_inj.1 hleading)
  · intro hmem
    exact absurd (le_of_mem_continuation hmem) (by decide)

/-- A text on one line has the bytes of one line. -/
theorem lineBreak_notMem_bytes {s : String} (h : '\n' ∉ s.toList) : lineBreak ∉ bytes s := by
  rw [bytes_eq, List.mem_flatMap]
  rintro ⟨c, hc, hmem⟩
  refine lineBreak_notMem_utf8EncodeChar ?_ hmem
  rintro rfl
  exact h hc

theorem bytes_push (s : String) : bytes (s.push '\n') = bytes s ++ [lineBreak] := by
  rw [bytes_eq, bytes_eq, String.toList_push, List.flatMap_append, List.flatMap_singleton]
  rfl

end Text

/-- The bytes of a text are read as this text. -/
theorem textOfBytes?_bytes (s : String) : textOfBytes? (Text.bytes s) = some s := by
  unfold textOfBytes? Text.bytes
  rw [Array.toArray_toList]
  unfold String.fromUTF8?
  rw [String.toUTF8_eq_toByteArray, dif_pos s.isValidUTF8]
  rfl

variable {text : String} {rest : List UInt8}

theorem splitLine_bytes (h : '\n' ∉ text.toList) :
    splitLine (Text.bytes (text.push '\n') ++ rest) = (Text.bytes (text.push '\n'), rest) := by
  have hended : TakesLine (Text.bytes text ++ [lineBreak]) (Text.bytes text ++ [lineBreak]) [] :=
    .ended (Text.lineBreak_notMem_bytes h)
  rw [Text.bytes_push]
  exact hended.splitLine_append List.getLast?_concat

/-- Nothing but the line break is taken off. -/
theorem lineContent_push (h : '\r' ∉ text.toList) : lineContent (text.push '\n') = text := by
  have hlast : text.toList.getLast? ≠ some '\r' := fun hlast => h (List.mem_of_getLast? hlast)
  obtain ⟨-, -, hended, -⟩ := lineContent_ofList text.toList
  have hline : text.push '\n' = .ofList (text.toList ++ ['\n']) := by
    rw [← String.toList_push, String.ofList_toList]
  rw [hline, hended hlast, String.ofList_toList]

/-- **A line is read as it was written**, whatever follows it. -/
theorem Request.answer_read_line {node : Node} {name : String} {s : Session}
    (hbreak : '\n' ∉ text.toList) (hreturn : '\r' ∉ text.toList)
    (h : s.input = Text.bytes (text.push '\n') ++ rest) :
    (Request.read node name).answer s = .ok text { s with input := rest } := by
  have hline : splitLine s.input = (Text.bytes (text.push '\n'), rest) := by
    rw [h, splitLine_bytes hbreak]
  have hne : Text.bytes (text.push '\n') ≠ [] := by
    rw [Text.bytes_push]
    exact List.concat_ne_nil _ _
  rw [answer_read_of_text hline hne (textOfBytes?_bytes _), lineContent_push hreturn]

end Scriptlet
