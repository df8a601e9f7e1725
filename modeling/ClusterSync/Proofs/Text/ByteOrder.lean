/-
# Byte order is the order by code points

UTF-8 writes a larger character with larger bytes. For characters that take up equally many bytes
these are the digits of the code point to base 64, highest first; otherwise the first byte tells,
since it tells how many there are. Neither depends on what comes behind (`encode_append_lt`), so
that texts compare as their bytes do (`le_iff_bytes`).
-/

import Mathlib.Tactic.SplitIfs
import ClusterSync.Text.Order

namespace ClusterSync
namespace Text

variable {a b : String} {cs ds : List Char}

/-- The bytes that a text is written with. -/
def bytes (text : String) : List UInt8 := text.toUTF8.data.toList

theorem bytes_eq (text : String) : bytes text = text.toList.flatMap String.utf8EncodeChar := by
  rw [bytes, String.toUTF8_eq_toByteArray, ← String.utf8Encode_toList]
  simp [List.utf8Encode]

/-- **A larger character has larger bytes**, whatever comes behind the two. -/
theorem encode_append_lt {c d : Char} (h : c < d) (cs ds : List UInt8) :
    String.utf8EncodeChar c ++ cs < String.utf8EncodeChar d ++ ds := by
  have hmax : d.val.toNat < 0x110000 := by
    have hvalid := d.valid
    simp only [UInt32.isValidChar, Nat.isValidChar] at hvalid
    omega
  have hlt : c.val.toNat < d.val.toNat := h
  generalize hv : c.val.toNat = v at hlt
  generalize hw : d.val.toNat = w at hlt hmax
  -- Where two code points have the same high digits, a lower one decides.
  have hlow : v / 64 < w / 64 ∨ v / 64 = w / 64 ∧ v % 64 < w % 64 := by omega
  have hmiddle : v / 4096 < w / 4096 ∨ v / 4096 = w / 4096 ∧ v / 64 % 64 ≤ w / 64 % 64 := by
    omega
  have hhigh : v / 262144 < w / 262144 ∨
      v / 262144 = w / 262144 ∧ v / 4096 % 64 ≤ w / 4096 % 64 := by
    omega
  simp only [String.utf8EncodeChar, hv, hw]
  split_ifs
  all_goals
    simp only [List.cons_append, List.nil_append, List.cons_lt_cons_iff, UInt8.lt_iff_toNat_lt,
      ← UInt8.toNat_inj, UInt8.toNat_ofNat']
    simp (disch := omega) only [Nat.mod_eq_of_lt]
    omega

theorem flatMap_encode_lt (h : cs < ds) :
    cs.flatMap String.utf8EncodeChar < ds.flatMap String.utf8EncodeChar := by
  induction h with
  | @nil d ds =>
    have hne : (d :: ds).flatMap String.utf8EncodeChar ≠ [] := by simp
    obtain ⟨first, rest, hcons⟩ := List.exists_cons_of_ne_nil hne
    rw [hcons]
    exact List.nil_lt_cons first rest
  | rel hlt => exact encode_append_lt hlt _ _
  | cons _ ih => exact List.append_left_lt ih

theorem bytes_lt (h : a < b) : bytes a < bytes b := by
  rw [bytes_eq, bytes_eq]
  exact flatMap_encode_lt h

/-- **Texts are ordered as their bytes are.** -/
theorem le_iff_bytes : a ≤ b ↔ bytes a ≤ bytes b := by
  constructor
  · intro hle
    by_cases heq : a = b
    · rw [heq]
      exact Std.le_refl (bytes b)
    · exact Std.le_of_lt (bytes_lt (Std.lt_of_le_of_ne hle heq))
  · intro hle hlt
    exact hle (bytes_lt hlt)

end Text
end ClusterSync
