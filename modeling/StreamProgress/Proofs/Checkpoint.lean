import StreamProgress.Proofs.Cursor.ReadBack

/-!
# Checkpoints give back their cursors

A checkpoint can be taken of any cursor, and whether it can be restored depends on how deep the
cursor is nested. The payload is JSON text, which is read with at most `127` brackets inside each
other, and a cursor takes one bracket for each cursor around a plain part, one for an index, and two
for partition offsets, whose names stand in a bracket of their own.

What is restored is an equal cursor, since equality does not look at flags, and its flags are at
their defaults (`Cursor.flagsAtDefault`).

## Main results

* `Checkpoint.restore_of_iff_depth` — which checkpoints can be restored, and to what
-/

namespace StreamProgress

namespace Cursor

/-- Replays of replays over an index, `n` of them inside each other. -/
def nestedReplays : ℕ → Cursor
  | 0 => sequence 5
  | n + 1 => replay (nestedReplays n) none false

theorem depthOf_nestedReplays (n : ℕ) : depthOf (some (nestedReplays n)) = n + 1 := by
  induction n with
  | zero => rfl
  | succ n ih =>
    rw [depthOf] at ih ⊢
    rw [nestedReplays, depth, depthOf, ih]
    omega

theorem halfWellFormed_nestedReplays (n : ℕ) : halfWellFormed (some (nestedReplays n)) = true := by
  induction n with
  | zero => rfl
  | succ n ih =>
    rw [halfWellFormed] at ih ⊢
    rw [nestedReplays, wellFormed, ih]
    rfl

end Cursor

namespace Checkpoint

open Cursor

/-- **A checkpoint is restored exactly up to a nesting of 127.** Take the checkpoint of an optional
cursor without empty merges. If its brackets are nested at most 127 deep, the checkpoint gives back
an equal cursor with all flags at their defaults; otherwise its text is malformed to the reader.
Whether checksums are verified makes no difference. -/
theorem restore_of_iff_depth (verify : Bool) {c : Option Cursor} (hformed : halfWellFormed c = true) :
    ((∃ c', (Checkpoint.of c).restore verify = .ok c' ∧ (c' == c) = true ∧
        halfFlagsAtDefault c' = true) ↔ depthOf c ≤ 127) ∧
      (127 < depthOf c → (Checkpoint.of c).restore verify = .error (.unreadable .malformed)) := by
  have hdeep : 127 < depthOf c →
      (Checkpoint.of c).restore verify = .error (.unreadable .malformed) := by
    intro hlt
    rw [restore_of, Json.maxNesting, if_pos hlt]
  refine ⟨⟨?_, ?_⟩, hdeep⟩
  · rintro ⟨c', hc', -, -⟩
    by_contra hle
    rw [hdeep (Nat.not_le.1 hle)] at hc'
    cases hc'
  · intro hle
    refine ⟨bareHalf c, ?_, bareHalf_beq c, halfFlagsAtDefault_bareHalf c⟩
    rw [restore_of, Json.maxNesting, if_neg (Nat.not_lt.2 hle), if_pos hformed]

/-- At the limit, and one replay beyond it. -/
theorem restore_of_iff_depth_nestedReplays :
    (∃ c', (Checkpoint.of (some (nestedReplays 126))).restore true = .ok c' ∧
        (c' == some (nestedReplays 126)) = true ∧ halfFlagsAtDefault c' = true) ∧
      (Checkpoint.of (some (nestedReplays 127))).restore true = .error (.unreadable .malformed) := by
  refine ⟨(restore_of_iff_depth true (halfWellFormed_nestedReplays 126)).1.2 ?_,
    (restore_of_iff_depth true (halfWellFormed_nestedReplays 127)).2 ?_⟩
  · rw [depthOf_nestedReplays]
  · rw [depthOf_nestedReplays]
    exact Nat.lt_succ_self 127

end Checkpoint

end StreamProgress
