import Mathlib.Data.List.Lex
import Mathlib.Data.String.Basic
import Mathlib.Order.Lattice

/-!
# The order of strings is that of their bytes

Strings are compared character by character, by code point. A store compares the bytes of UTF-8, and
there a character takes one to four bytes. The two orders agree. An encoding of more bytes starts with
a larger byte, and among encodings of one length the bits of the code point stand from the highest to
the lowest, so two characters are told apart in the byte where their bits first differ, whatever
follows them (`Utf8.encodeChar_append_lt`).

## Main results

* `Utf8.bytes_lt_iff` — bytes ascend exactly where strings do
-/

namespace StreamProgress

namespace Utf8

variable {c d : Char} {s t : String}

/-- The bytes of a string. -/
def bytes (s : String) : List UInt8 := s.toUTF8.data.toList

theorem bytes_ofList (chars : List Char) :
    bytes (String.ofList chars) = chars.flatMap String.utf8EncodeChar := by
  rw [bytes, String.toUTF8_eq_toByteArray]
  exact List.toList_data_toByteArray

theorem bytes_eq (s : String) : bytes s = s.toList.flatMap String.utf8EncodeChar := by
  have h := bytes_ofList s.toList
  rwa [String.ofList_toList] at h

/-! ### One character -/

theorem lt_of_char (c : Char) : c.val.toNat < 0x110000 := by
  have h := c.valid
  unfold UInt32.isValidChar Nat.isValidChar at h
  omega

theorem ofNat_eq_iff_eq {m n : ℕ} (hm : m < UInt8.size) (hn : n < UInt8.size) :
    UInt8.ofNat m = UInt8.ofNat n ↔ m = n := by
  rw [← UInt8.toNat_inj, UInt8.toNat_ofNat_of_lt' hm, UInt8.toNat_ofNat_of_lt' hn]

/-- The encodings of two characters differ at a byte that both have, in the direction of the
characters. -/
theorem encodeChar_append_lt (h : c < d) (rest rest' : List UInt8) :
    String.utf8EncodeChar c ++ rest < String.utf8EncodeChar d ++ rest' := by
  have hlt : c.val.toNat < d.val.toNat := h
  -- six bits at a time, and the highest byte is not full
  have hdigits (e : Char) :
      e.val.toNat / 64 / 64 = e.val.toNat / 4096 ∧ e.val.toNat / 4096 / 64 = e.val.toNat / 262144 ∧
        e.val.toNat / 262144 % 8 = e.val.toNat / 262144 := by
    have hbound := lt_of_char e
    omega
  have hsize : UInt8.size = 256 := rfl
  have hc := hdigits c
  have hd := hdigits d
  unfold String.utf8EncodeChar
  generalize c.val.toNat = m at *
  generalize d.val.toNat = n at *
  dsimp only
  split_ifs <;>
    simp (disch := omega) only [List.cons_append, List.nil_append, List.cons_lt_cons_iff,
      UInt8.ofNat_lt_iff_lt, ofNat_eq_iff_eq] <;>
    omega

/-! ### Whole strings -/

theorem flatMap_encodeChar_lt {chars chars' : List Char} (h : chars < chars') :
    chars.flatMap String.utf8EncodeChar < chars'.flatMap String.utf8EncodeChar := by
  induction h with
  | @nil c rest =>
    have hne : String.utf8EncodeChar c ≠ [] := String.utf8EncodeChar_ne_nil
    obtain ⟨b, bytes, hb⟩ := List.exists_cons_of_ne_nil hne
    rw [List.flatMap_nil, List.flatMap_cons, hb]
    exact List.nil_lt_cons ..
  | cons _ ih =>
    rw [List.flatMap_cons, List.flatMap_cons]
    exact List.append_left_lt ih
  | rel hlt =>
    rw [List.flatMap_cons, List.flatMap_cons]
    exact encodeChar_append_lt hlt _ _

theorem bytes_lt_of_lt (h : s < t) : bytes s < bytes t := by
  rw [bytes_eq, bytes_eq]
  exact flatMap_encodeChar_lt (String.lt_iff.1 h)

/-- **The bytes of two strings are ordered like the strings.** -/
theorem bytes_lt_iff : bytes s < bytes t ↔ s < t := by
  refine ⟨fun h => ?_, bytes_lt_of_lt⟩
  by_contra hle
  obtain rfl | hlt := (Std.not_lt.1 hle).eq_or_lt
  · exact List.lt_irrefl _ h
  · exact List.lt_asymm h (bytes_lt_of_lt hlt)

end Utf8

end StreamProgress
