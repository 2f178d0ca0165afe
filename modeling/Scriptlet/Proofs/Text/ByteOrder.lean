import Mathlib.Data.String.Basic

/-!
The order of texts is the order of their bytes.

Texts are compared character by character, and where one is compared byte by byte the outcome is the
same: a character of a greater number has a greater first byte, or the same first byte, as many bytes
in all, and greater ones behind it.  The first byte tells how many follow (`following`); each of those
that follow has one digit of the number to the base 64 (`continuation`), so the first difference
decides.

The proof is about two characters first, and the case that matters is that of two characters which
begin with the same byte.  Then they have the same number of bytes, since the first byte tells it, and
the numbers are those of the digits behind it, of which the first that differs is greater in the
greater number.  For lists, two that share a first part are compared behind it, and what stands behind
two different characters does not matter (`utf8EncodeChar_append_lt`).

Main statement: `lt_iff_bytes_lt`.
-/

namespace Scriptlet
namespace Text

/-- The bytes of a text. -/
def bytes (s : String) : List UInt8 := s.toUTF8.data.toList

/-- The first byte of the character with a number. -/
def leading (n : Nat) : Nat :=
  if n ≤ 127 then n else if n ≤ 2047 then n / 64 + 192
  else if n ≤ 65535 then n / 4096 + 224 else n / 262144 + 240

/-- How many bytes follow the first one. -/
def following (n : Nat) : Nat :=
  if n ≤ 127 then 0 else if n ≤ 2047 then 1 else if n ≤ 65535 then 2 else 3

/-- The last `k` digits of the number to the base 64, each in a byte. -/
def continuation : Nat → Nat → List UInt8
  | 0, _ => []
  | k + 1, n => continuation k (n / 64) ++ [UInt8.ofNat (n % 64 + 128)]

theorem lt_unicode (c : Char) : c.val.toNat < 1114112 := by
  rcases c.valid with h | ⟨_, h⟩
  · exact Nat.lt_trans h (by decide)
  · exact h

theorem leading_lt {n : Nat} (h : n < 1114112) : leading n < 256 := by
  unfold leading
  split
  · omega
  · split
    · omega
    · split <;> omega

/-- The encoding of a character. -/
theorem utf8EncodeChar_eq (c : Char) :
    String.utf8EncodeChar c =
      UInt8.ofNat (leading c.val.toNat) :: continuation (following c.val.toNat) c.val.toNat := by
  have hc := lt_unicode c
  unfold String.utf8EncodeChar leading following
  dsimp only
  split
  · rfl
  -- the ranges of two, three and four bytes
  split
  · next h =>
    rw [Nat.mod_eq_of_lt (by omega : c.val.toNat / 64 < 32)]
    rfl
  split
  · next h =>
    rw [Nat.mod_eq_of_lt (by omega : c.val.toNat / 4096 < 16)]
    rfl
  · rw [Nat.mod_eq_of_lt (by omega : c.val.toNat / 262144 < 8),
      show c.val.toNat / 4096 = c.val.toNat / 64 / 64 by omega]
    rfl

theorem ofNat_lt_ofNat {m n : Nat} (h : m < n) (hn : n < 256) : UInt8.ofNat m < UInt8.ofNat n := by
  rw [UInt8.lt_iff_toNat_lt, UInt8.toNat_ofNat', UInt8.toNat_ofNat', Nat.mod_eq_of_lt hn,
    Nat.mod_eq_of_lt (Nat.lt_trans h hn)]
  exact h

/-- The first digit in which two numbers differ decides, if the digits before those are the same. -/
theorem continuation_lt {k m n : Nat} (h : m < n) (htop : m / 64 ^ k = n / 64 ^ k)
    (xs ys : List UInt8) : continuation k m ++ xs < continuation k n ++ ys := by
  induction k generalizing m n xs ys with
  | zero =>
    rw [Nat.pow_zero, Nat.div_one, Nat.div_one] at htop
    omega
  | succ k ih =>
    rw [continuation, continuation, List.append_assoc, List.append_assoc]
    by_cases hhigh : m / 64 < n / 64
    · refine ih hhigh ?_ _ _
      rw [Nat.div_div_eq_div_mul, Nat.div_div_eq_div_mul, Nat.mul_comm, ← Nat.pow_succ, htop]
    · have hsame : m / 64 = n / 64 := by omega
      rw [hsame]
      refine List.append_left_lt (List.cons_lt_cons_iff.2 (Or.inl (ofNat_lt_ofNat ?_ ?_))) <;> omega

/-- A greater number has a greater first byte, or only the bytes that follow are different. -/
theorem leading_lt_or {m n : Nat} (h : m < n) :
    leading m < leading n ∨ leading m = leading n ∧ following m = following n ∧
      m / 64 ^ following n = n / 64 ^ following n := by
  unfold leading following
  grind

/-- A smaller character comes first, whatever stands behind it. -/
theorem utf8EncodeChar_append_lt {c d : Char} (h : c < d) (xs ys : List UInt8) :
    String.utf8EncodeChar c ++ xs < String.utf8EncodeChar d ++ ys := by
  have hlt : c.val.toNat < d.val.toNat := h
  rw [utf8EncodeChar_eq, utf8EncodeChar_eq, List.cons_append, List.cons_append,
    List.cons_lt_cons_iff]
  rcases leading_lt_or hlt with hleading | ⟨hleading, hfollowing, htop⟩
  · exact Or.inl (ofNat_lt_ofNat hleading (leading_lt (lt_unicode d)))
  · rw [hleading, hfollowing]
    exact Or.inr ⟨rfl, continuation_lt hlt htop xs ys⟩

theorem bytes_eq (s : String) : bytes s = s.toList.flatMap String.utf8EncodeChar := by
  have hs : s.toUTF8 = s.toList.utf8Encode := by
    rw [String.toUTF8_eq_toByteArray, ← String.toByteArray_ofList, String.ofList_toList]
  unfold bytes
  rw [hs, List.utf8Encode, List.data_toByteArray]

/-- Lists of characters in order have bytes in order. -/
theorem flatMap_utf8EncodeChar_lt {l r : List Char} (h : l < r) :
    l.flatMap String.utf8EncodeChar < r.flatMap String.utf8EncodeChar := by
  induction l generalizing r with
  | nil =>
    cases r with
    | nil => exact absurd h (List.not_lt_nil _)
    | cons d r =>
      rw [List.flatMap_cons, utf8EncodeChar_eq, List.cons_append]
      exact List.nil_lt_cons _ _
  | cons c l ih =>
    cases r with
    | nil => exact absurd h (List.not_lt_nil _)
    | cons d r =>
      rw [List.flatMap_cons, List.flatMap_cons]
      rcases List.cons_lt_cons_iff.1 h with hlt | ⟨rfl, hrest⟩
      · exact utf8EncodeChar_append_lt hlt _ _
      · exact List.append_left_lt (ih hrest)

/-- **The order of texts is that of their bytes.** -/
theorem lt_iff_bytes_lt {s t : String} : s < t ↔ bytes s < bytes t := by
  have hbytes : ∀ {s t : String}, s < t → bytes s < bytes t := by
    intro s t h
    rw [bytes_eq, bytes_eq]
    exact flatMap_utf8EncodeChar_lt (String.lt_iff_toList_lt.1 h)
  refine ⟨hbytes, fun h => ?_⟩
  rcases lt_trichotomy s t with hlt | rfl | hgt
  · exact hlt
  · exact absurd h (List.lt_irrefl _)
  · exact absurd h (List.lt_asymm (hbytes hgt))

end Text
end Scriptlet
