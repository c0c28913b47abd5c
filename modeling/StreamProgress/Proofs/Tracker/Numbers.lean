import StreamProgress.Proofs.Position.Number
import StreamProgress.Proofs.Tracker.Completion

/-!
# Reported numbers follow coverage

A tracker reports positions as numbers: its lag, and the position at which a pending merge completes.
A number forgets which partitions it was summed over, so little can be concluded from two numbers. In
the other direction nothing is lost: what is covered has no larger number, although a sum may have been
cut off on one side or on both.

The lag is counted from the floor of the cursor and a merge completes at the ceiling. So of two
segments the one that has read more has no larger lag, and no segment completes a merge before the
position that its lag is counted from.

## Main results

* `Cursor.mergePosition_of_ceiling` — a pending merge completes at the ceiling
* `Tracker.lag_le_of_covers` — the segment that has read more has no larger lag
* `Tracker.numbers_follow_coverage` — sums, lags and bounds
-/

namespace StreamProgress

namespace Cursor

variable {half : Option Cursor} {p q lo hi : Position}

/-- The merge that a cursor is in completes at the ceiling of the whole cursor, however deep in replays
the merge is. -/
theorem mergePosition_of_ceiling (h : ceilingOf half = .ok (some hi))
    (hmerging : isMergeInProgress half = true) : mergePosition half = .ok (some hi.number) := by
  obtain ⟨m, hm⟩ := Option.isSome_iff_exists.1 hmerging
  cases half with
  | none => cases hm
  | some c =>
    have hceiling : m.ceiling = .ok (some hi) := (ceiling_of_unwrap_merged hm).trans h
    rw [mergePosition, hm]
    simp only [hceiling]
    rfl

/-- An optional cursor with a floor has a ceiling, whose number is not smaller. -/
theorem exists_ceilingOf_number_le (h : floorOf half = .ok (some lo)) :
    ∃ hi, ceilingOf half = .ok (some hi) ∧ lo.number ≤ hi.number := by
  obtain ⟨c, rfl, hc⟩ := floorOf_eq_ok_some_iff.1 h
  obtain ⟨hi, hhi, hle⟩ := exists_ceiling_of_floor hc
  exact ⟨hi, hhi, Position.number_le_number hle⟩

end Cursor

namespace Tracker

variable {t u : Tracker} {p q : Position}

/-- **The segment that has read more has no larger lag.** -/
theorem lag_le_of_covers (ht : Cursor.floorOf t.cursor = .ok (some p))
    (hu : Cursor.floorOf u.cursor = .ok (some q)) (h : p.covers q = .ok true) (head : UInt64) :
    ∃ m n, t.lag head = .ok (some m) ∧ u.lag head = .ok (some n) ∧ m ≤ n :=
  ⟨_, _, lag_of_floor ht, lag_of_floor hu, Count.sub_le_sub (Position.number_le_number h) head⟩

/-- **Numbers follow coverage, and none of them wraps.**

* The number of partition offsets is their true sum, or the largest count if the sum does not fit,
  for any number of offsets of any size.
* A plain cursor that covers another has no smaller number.
* Of two trackers whose cursors have floors, one of which covers the other, the first has no larger
  lag behind any head.
* A cursor with a floor has a ceiling. The number of the floor is not larger than that of the ceiling,
  which is the merge position if there is a merge in progress. -/
theorem numbers_follow_coverage :
    (∀ a : Offsets, ∃ n, (Cursor.partitions a).number = some n ∧
        n.toNat = min a.sum (UInt64.size - 1)) ∧
      (∀ p q : Position, (Cursor.plain p).covers (.plain q) = .ok true →
        ∃ m n, (Cursor.plain p).number = some m ∧ (Cursor.plain q).number = some n ∧ n ≤ m) ∧
      (∀ (t u : Tracker) (p q : Position) (head : UInt64),
        Cursor.floorOf t.cursor = .ok (some p) → Cursor.floorOf u.cursor = .ok (some q) →
          (Cursor.plain p).covers (.plain q) = .ok true →
            ∃ m n, t.lag head = .ok (some m) ∧ u.lag head = .ok (some n) ∧ m ≤ n) ∧
      ∀ (c : Option Cursor) (lo : Position), Cursor.floorOf c = .ok (some lo) →
        ∃ hi, Cursor.ceilingOf c = .ok (some hi) ∧ lo.number ≤ hi.number ∧
          (Cursor.isMergeInProgress c = true →
            Cursor.mergePosition c = .ok (some hi.number)) := by
  refine ⟨?sum, ?plain, ?lag, ?bounds⟩
  case sum =>
    intro a
    exact ⟨a.total, rfl, a.toNat_total⟩
  case plain =>
    intro p q h
    exact ⟨p.number, q.number, rfl, rfl, Position.number_le_number h⟩
  case lag =>
    intro t u p q head ht hu h
    exact lag_le_of_covers ht hu h head
  case bounds =>
    intro c lo hlo
    obtain ⟨hi, hhi, hle⟩ := Cursor.exists_ceilingOf_number_le hlo
    exact ⟨hi, hhi, hle, Cursor.mergePosition_of_ceiling hhi⟩

/-- Offsets whose sum does not fit, and a merge in the progress of a replay, with neither half ahead of
the other. -/
theorem numbers_follow_coverage_partitions :
    ∃ (a : Offsets) (c : Cursor), a = .ofPairs [("a", Count.largest), ("b", 2)] ∧
      c = Cursor.replay (.partitions (.ofPairs [("a", 9)]))
        (some (.merged (some (.partitions (.ofPairs [("a", 4), ("b", 1)])))
          (some (.partitions (.ofPairs [("a", 3), ("b", 2)]))) true false)) true ∧
      (∃ n, (Cursor.partitions a).number = some n ∧ n.toNat = UInt64.size - 1) ∧
      (∃ m n, (start "orders-7" (some (.partitions a)) {}).lag 9 = .ok (some m) ∧
        (start "orders-8" (some c) {}).lag 9 = .ok (some n) ∧ m ≤ n) ∧
      ∃ hi, Cursor.ceilingOf (some c) = .ok (some hi) ∧ 4 ≤ hi.number ∧
        Cursor.mergePosition (some c) = .ok (some hi.number) := by
  obtain ⟨a, ha⟩ : ∃ a : Offsets, a = .ofPairs [("a", Count.largest), ("b", 2)] := ⟨_, rfl⟩
  obtain ⟨c, hc⟩ : ∃ c, c = Cursor.replay (.partitions (.ofPairs [("a", 9)]))
      (some (.merged (some (.partitions (.ofPairs [("a", 4), ("b", 1)])))
        (some (.partitions (.ofPairs [("a", 3), ("b", 2)]))) true false)) true := ⟨_, rfl⟩
  obtain ⟨hsum, -, hlag, hbounds⟩ := numbers_follow_coverage
  have hfloor : Cursor.floorOf (some c) =
      .ok (some (.partitions (.ofPairs [("a", 3), ("b", 1)]))) := by
    rw [hc]
    rfl
  have hmerging : Cursor.isMergeInProgress (some c) = true := by
    rw [hc]
    rfl
  have hcovers : (Cursor.plain (.partitions a)).covers
      (.plain (.partitions (.ofPairs [("a", 3), ("b", 1)]))) = .ok true := by
    rw [ha]
    rfl
  have htotal : min a.sum (UInt64.size - 1) = UInt64.size - 1 := by
    rw [ha]
    rfl
  obtain ⟨hi, hhi, hle, hposition⟩ := hbounds (some c) _ hfloor
  refine ⟨a, c, ha, hc, ?_, ?_, hi, hhi, hle, hposition hmerging⟩
  · obtain ⟨n, hn, htrue⟩ := hsum a
    exact ⟨n, hn, htrue.trans htotal⟩
  · exact hlag (start "orders-7" (some (.partitions a)) {}) (start "orders-8" (some c) {}) _ _ 9 rfl
      hfloor hcovers

end Tracker

end StreamProgress
