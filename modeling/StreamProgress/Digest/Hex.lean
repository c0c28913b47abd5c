/-!
# Bytes in hexadecimal

Every byte is written with two lower-case digits, so a text determines the bytes that it was
written from (`Hex.ofBytes_injective`).
-/

namespace StreamProgress

namespace Hex

/-- The two digits of a byte. -/
def ofByte (b : UInt8) : List Char :=
  [(b.toNat / 16).digitChar, (b.toNat % 16).digitChar]

/-- The digits of bytes. -/
def ofBytes (bytes : List UInt8) : String := String.ofList (bytes.flatMap ofByte)

theorem ofByte_injective {a b : UInt8} (h : ofByte a = ofByte b) : a = b := by
  have digit : ∀ i j : Fin 16, i.val.digitChar = j.val.digitChar → i = j := by decide
  have ha := a.toNat_lt
  have hb := b.toNat_lt
  simp only [ofByte, List.cons.injEq, and_true] at h
  have high := digit ⟨a.toNat / 16, by omega⟩ ⟨b.toNat / 16, by omega⟩ h.1
  have low := digit ⟨a.toNat % 16, by omega⟩ ⟨b.toNat % 16, by omega⟩ h.2
  simp only [Fin.mk.injEq] at high low
  exact UInt8.toNat_inj.1 (by omega)

theorem flatMap_ofByte_injective {a b : List UInt8} (h : a.flatMap ofByte = b.flatMap ofByte) :
    a = b := by
  induction a generalizing b with
  | nil =>
    cases b with
    | nil => rfl
    | cons y b => simp [ofByte] at h
  | cons x a ih =>
    cases b with
    | nil => simp [ofByte] at h
    | cons y b =>
      rw [List.flatMap_cons, List.flatMap_cons] at h
      obtain ⟨hx, hrest⟩ := List.append_inj h (by simp [ofByte])
      rw [ofByte_injective hx, ih hrest]

theorem ofBytes_injective {a b : List UInt8} (h : ofBytes a = ofBytes b) : a = b :=
  flatMap_ofByte_injective (String.ofList_injective h)

end Hex

end StreamProgress
