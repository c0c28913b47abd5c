import StreamProgress.Proofs.Cursor.ReadBack

/-!
# Changed checkpoints are noticed

A checkpoint has three fields, each of which can be changed in the store without the others. What
notices the change depends on the field. The checksum and the payload are held against each other, if
checksums are verified at all; the kind and the payload are held against each other in any case.

## What a checksum can tell

A checksum is the digest of the payload in hexadecimal. The digits determine the digest, so two
payloads have one checksum exactly if they have one digest (`Checkpoint.checksumOf_eq_iff`). That no
two payloads have one digest is false, as there are only so many digests, and is not used: a payload
with the digest of the stored one is restored as if nothing were verified.

## Main results

* `Checkpoint.restore_eq_ok_iff` — which checkpoints can be restored, whatever their fields are
* `Checkpoint.restore_of_changed` — one field of a checkpoint changed
-/

namespace StreamProgress

namespace Checkpoint

variable {c d : Option Cursor} {r : Checkpoint} {payload payload' : String}

/-! ### Checksums -/

/-- The digest of a payload. -/
def digestOf (payload : String) : List UInt8 := Sha256.digest payload.toUTF8.data.toList

theorem checksumOf_eq (payload : String) : checksumOf payload = Hex.ofBytes (digestOf payload) := rfl

theorem checksumOf_eq_iff :
    checksumOf payload = checksumOf payload' ↔ digestOf payload = digestOf payload' := by
  rw [checksumOf_eq, checksumOf_eq]
  exact ⟨fun h => Hex.ofBytes_injective h, fun h => congrArg Hex.ofBytes h⟩

/-! ### The three checks

They are made in this order: the checksum, the text, the kind. What fails one of them is not put to the
next. -/

theorem restore_of_checksum_ne (h : checksumOf r.payload ≠ r.checksum) :
    r.restore true = .error (.checksumMismatch r.checksum (checksumOf r.payload)) := by
  rw [restore, Bool.true_and, if_pos (bne_iff_ne.2 h)]

theorem restore_of_checksum_eq (r : Checkpoint) (h : checksumOf r.payload = r.checksum)
    (verify : Bool) : r.restore verify = r.decode := by
  have hchecksum : (verify && checksumOf r.payload != r.checksum) = false := by
    rw [bne_eq_false_iff_eq.2 h, Bool.and_false]
  rw [restore, hchecksum]
  rfl

theorem restore_false (r : Checkpoint) : r.restore false = r.decode := rfl

theorem decode_of_kind_ne (h : Cursor.parseNullable r.payload = .ok d)
    (hkind : d.map Cursor.kind ≠ r.kind) :
    r.decode = .error (.kindMismatch r.kind (d.map Cursor.kind)) := by
  simp only [decode, h, if_neg hkind]

theorem decode_eq_ok_iff :
    r.decode = .ok d ↔ Cursor.parseNullable r.payload = .ok d ∧ d.map Cursor.kind = r.kind := by
  rw [decode]
  cases Cursor.parseNullable r.payload with
  | error fault => simp
  | ok found =>
    by_cases hkind : found.map Cursor.kind = r.kind
    · simp only [if_pos hkind]
      constructor
      · intro h
        cases h
        exact ⟨rfl, hkind⟩
      · rintro ⟨h, -⟩
        cases h
        rfl
    · simp only [if_neg hkind]
      constructor
      · intro h
        cases h
      · rintro ⟨h, hd⟩
        cases h
        exact absurd hd hkind

/-- **What a checkpoint gives back** is what its payload is the text of, provided that the recorded
kind is the kind of that and, where checksums are verified, that the recorded checksum is that of the
payload. -/
theorem restore_eq_ok_iff (verify : Bool) :
    r.restore verify = .ok d ↔
      (verify = true → checksumOf r.payload = r.checksum) ∧
        Cursor.parseNullable r.payload = .ok d ∧ d.map Cursor.kind = r.kind := by
  cases verify with
  | false =>
    rw [restore_false, decode_eq_ok_iff]
    exact (and_iff_right nofun).symm
  | true =>
    by_cases h : checksumOf r.payload = r.checksum
    · rw [restore_of_checksum_eq r h, decode_eq_ok_iff]
      exact (and_iff_right fun _ => h).symm
    · rw [restore_of_checksum_ne h]
      exact iff_of_false nofun fun hok => h (hok.1 rfl)

/-! ### Changing one field -/

theorem checksum_of (c : Option Cursor) :
    checksumOf (Checkpoint.of c).payload = (Checkpoint.of c).checksum := rfl

theorem parseNullable_payload (hformed : Cursor.halfWellFormed c = true)
    (hdepth : Cursor.depthOf c ≤ 127) :
    Cursor.parseNullable (Checkpoint.of c).payload = .ok (Cursor.bareHalf c) := by
  rw [Checkpoint.of, Cursor.parseNullable_text, Json.maxNesting, if_neg (Nat.not_lt.2 hdepth),
    if_pos hformed]

/-- **One changed field of a checkpoint is noticed.** Take the checkpoint of an optional cursor that
has no empty merge and whose brackets are nested at most 127 deep.

* With another checksum it fails where checksums are verified, and the fault names both.
* With another payload it fails there unless the digests agree, and then it is not told from the
  stored one by its checksum.
* With another kind it fails whether or not checksums are verified, and the fault names both kinds.
* Where checksums are not verified, a payload gives back what it is the text of if that has the
  recorded kind, and nothing else. -/
theorem restore_of_changed (hformed : Cursor.halfWellFormed c = true)
    (hdepth : Cursor.depthOf c ≤ 127) :
    (∀ checksum, checksum ≠ (Checkpoint.of c).checksum →
      { Checkpoint.of c with checksum }.restore true =
        .error (.checksumMismatch checksum (Checkpoint.of c).checksum)) ∧
    (∀ payload, digestOf payload ≠ digestOf (Checkpoint.of c).payload →
      { Checkpoint.of c with payload }.restore true =
        .error (.checksumMismatch (Checkpoint.of c).checksum (checksumOf payload))) ∧
    (∀ payload, digestOf payload = digestOf (Checkpoint.of c).payload →
      { Checkpoint.of c with payload }.restore true =
        { Checkpoint.of c with payload }.restore false) ∧
    (∀ verify kind, kind ≠ c.map Cursor.kind →
      { Checkpoint.of c with kind }.restore verify =
        .error (.kindMismatch kind (c.map Cursor.kind))) ∧
    ∀ payload d,
      { Checkpoint.of c with payload }.restore false = .ok d ↔
        Cursor.parseNullable payload = .ok d ∧ d.map Cursor.kind = c.map Cursor.kind := by
  refine ⟨?checksum, ?payload, ?sameDigest, ?kind, fun _ _ => decode_eq_ok_iff⟩
  case checksum =>
    intro checksum hne
    exact restore_of_checksum_ne hne.symm
  case payload =>
    intro payload hne
    exact restore_of_checksum_ne (mt checksumOf_eq_iff.1 hne)
  case sameDigest =>
    intro payload heq
    have hchecksum : checksumOf payload = (Checkpoint.of c).checksum := by
      rw [← checksum_of, checksumOf_eq_iff]
      exact heq
    exact restore_of_checksum_eq { Checkpoint.of c with payload } hchecksum true
  case kind =>
    intro verify kind hne
    have hfound := Cursor.map_kind_bareHalf c
    have hdecode : { Checkpoint.of c with kind }.decode =
        .error (.kindMismatch kind ((Cursor.bareHalf c).map Cursor.kind)) :=
      decode_of_kind_ne (parseNullable_payload hformed hdepth) (hfound ▸ hne.symm)
    rw [← hfound, ← hdecode]
    exact restore_of_checksum_eq { Checkpoint.of c with kind } (checksum_of c) verify

/-- A merge that has only its lower half, with a checksum that is no digest, the payload of a segment
that has not started, no kind, and the payload of a merge that has only its upper half. -/
theorem restore_of_changed_merged :
    let c := Cursor.merged (some (.sequence 3)) none true false
    let d := Cursor.merged none (some (.sequence 4)) false false
    { Checkpoint.of (some c) with checksum := "" }.restore true =
        .error (.checksumMismatch "" (Checkpoint.of (some c)).checksum) ∧
      { Checkpoint.of (some c) with payload := "null" }.restore true =
        .error (.checksumMismatch (Checkpoint.of (some c)).checksum (checksumOf "null")) ∧
      { Checkpoint.of (some c) with kind := none }.restore true =
        .error (.kindMismatch none (some .merged)) ∧
      { Checkpoint.of (some c) with payload := (Checkpoint.of (some d)).payload }.restore false =
        .ok (some d) := by
  intro c d
  obtain ⟨hchecksum, hpayload, -, hkind, hrestored⟩ :=
    restore_of_changed (rfl : Cursor.halfWellFormed (some c) = true) (by decide)
  have hother : Cursor.parseNullable (Checkpoint.of (some d)).payload = .ok (some d) :=
    parseNullable_payload rfl (by decide)
  exact ⟨hchecksum "" (by decide +kernel), hpayload "null" (by decide +kernel),
    hkind true none nofun, (hrestored _ (some d)).2 ⟨hother, rfl⟩⟩

end Checkpoint

end StreamProgress
