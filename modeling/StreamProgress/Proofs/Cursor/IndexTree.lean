import Mathlib.Order.Bounds.Defs
import StreamProgress.Proofs.Cursor.MergeTree

/-!
# Merge trees over indices

Where the leaves of a merge tree are indices, two numbers tell what it will do: the largest index at
its leaves, and the smallest one, which is absent if a part has not started. The largest decides
whether the next position completes the merge; the smallest is the floor.

## Main results

* `Cursor.floor_of_isLowest` — the floor of a tree over indices is its smallest index
* `Cursor.PendingMerge.advance_of_le` — up to the largest index the merge stays pending, with the
  same largest index, and the smallest one is raised
* `Cursor.PendingMerge.advance_of_lt` — beyond the largest index the merge completes
-/

namespace StreamProgress

namespace Cursor

variable {m : Cursor} {top i : UInt64} {low : Option UInt64}

/-- The indices at the leaves of a cursor. -/
def indices (c : Cursor) : Set UInt64 := {i | some (.sequence i) ∈ c.leaves}

/-- Whether an index is the smallest one at the leaves of a cursor. There is none if a part of the
cursor has not started. -/
def IsLowest (c : Cursor) : Option UInt64 → Prop
  | none => none ∈ c.leaves
  | some i => none ∉ c.leaves ∧ IsLeast c.indices i

/-- A floor that may be absent, raised by an index. -/
def raiseIndex : Option UInt64 → UInt64 → UInt64
  | none, i => i
  | some j, i => max j i

theorem raise_sequence (low : Option UInt64) (i : UInt64) :
    Position.raise (low.map .sequence) (.sequence i) = .ok (.sequence (raiseIndex low i)) := by
  cases low <;> rfl

/-- In a tree over indices a leaf of a part that has started is an index. -/
theorem MergeTree.exists_index (h : MergeTree .sequence m) {p : Position}
    (hp : some p ∈ m.leaves) : ∃ i ∈ m.indices, p = .sequence i := by
  obtain ⟨i, rfl⟩ := Position.exists_index_of_kind (h.kind_of_mem_leaves hp)
  exact ⟨i, hp, rfl⟩

/-- The floor is the smallest index. It covers no more than that leaf, and the leaf, being the
smallest, is covered by all of them. -/
theorem floor_of_isLowest (h : MergeTree .sequence m) (hlow : m.IsLowest low) :
    m.floor = .ok (low.map .sequence) := by
  obtain ⟨o, ho, -⟩ := h.exists_floor
  rw [ho]
  cases o with
  | none =>
    have hnone := none_mem_leaves_of_floor ho
    cases low with
    | none => rfl
    | some i => exact absurd hnone hlow.1
  | some p =>
    have hleaf := (le_floor_iff ho).1 le_rfl
    cases low with
    | none =>
      obtain ⟨q, hq, -⟩ := hleaf none hlow
      cases hq
    | some i =>
      obtain ⟨q, ⟨⟩, hpi⟩ := hleaf _ hlow.2.1
      have hip : .sequence i ≤ p := by
        rw [le_floor_iff ho]
        intro leaf hl
        cases leaf with
        | none => exact absurd hl hlow.1
        | some q =>
          obtain ⟨j, hj, rfl⟩ := h.exists_index hl
          exact ⟨_, rfl, Position.sequence_le_sequence.2 (hlow.2.2 hj)⟩
      rw [hpi.antisymm hip]
      rfl

/-- A merge of indices that is not complete, with its largest index and its floor. -/
structure PendingMerge (m : Cursor) (top : UInt64) (low : Option UInt64) : Prop where
  tree : MergeTree .sequence m
  merged : m.kind = .merged
  top : IsGreatest m.indices top
  floor : m.floor = .ok (low.map .sequence)

namespace PendingMerge

theorem exists_move (h : PendingMerge m top low) (i : UInt64) :
    ∃ r, m.advance (sequence i) = .ok r ∧ TreeMove (.sequence i) (some m) r := by
  obtain ⟨r, hr⟩ := h.tree.exists_advance (x := .sequence i) rfl
  refine ⟨r, hr, h.tree.treeMove ?_ hr⟩
  rw [h.merged]
  rfl

/-- Up to the largest index the merge stays pending. The largest leaf does not move, so its half
does not either, or is merged itself. -/
theorem advance_of_le (h : PendingMerge m top low) (hi : i ≤ top) :
    ∃ r, m.advance (sequence i) = .ok r ∧ PendingMerge r top (some (raiseIndex low i)) := by
  obtain ⟨r, hr, hmove⟩ := h.exists_move i
  have hle : Position.sequence i ≤ .sequence top := Position.sequence_le_sequence.2 hi
  have htree : MergeTree .sequence r := hmove.mergeTree (by rintro _ ⟨⟩; exact h.tree) rfl
  refine ⟨r, hr, htree, ?_, ⟨hmove.mem_leaves h.top.1 hle, ?_⟩, ?_⟩
  · obtain hwraps | hsame := hmove.wraps_or_eq h.top.1 hle
    · obtain ⟨_, _, _, _, rfl, -, -⟩ := htree.eq_merged_of_wraps hwraps
      rfl
    · rw [← Option.some.inj hsame]
      exact h.merged
  · intro j hj
    have hbound : ∀ p, some p ∈ m.leaves → p ≤ .sequence top := by
      intro p hp
      obtain ⟨i, hi, rfl⟩ := h.tree.exists_index hp
      exact Position.sequence_le_sequence.2 (h.top.2 hi)
    exact Position.sequence_le_sequence.1 (hmove.leaves_le hbound hle _ hj)
  · obtain ⟨lo, hlo, hfloor⟩ := hmove.exists_raise h.floor
    rw [raise_sequence] at hlo
    rw [hfloor, ← Except.ok.inj hlo]
    rfl

/-- Beyond the largest index the merge completes. -/
theorem advance_of_lt (h : PendingMerge m top low) (hi : top < i) :
    m.advance (sequence i) = .ok (sequence i) := by
  obtain ⟨r, hr, hmove⟩ := h.exists_move i
  have hbeyond : ∀ p, some p ∈ m.leaves → p < .sequence i := by
    intro p hp
    obtain ⟨j, hj, rfl⟩ := h.tree.exists_index hp
    exact Position.sequence_lt_sequence.2 (UInt64.lt_of_le_of_lt (h.top.2 hj) hi)
  rw [hr, (hmove.eq_plain hbeyond).1]
  rfl

end PendingMerge

end Cursor

end StreamProgress
