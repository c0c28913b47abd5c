import StreamProgress.Proofs.Cursor.Advance
import StreamProgress.Tracker

/-!
# What a tracker has covered

A tracker answers two questions about coverage: whether entries up to a position still have to be
read, and how far the segment is behind a head. The first asks the cursor itself, the second its
floor. The main statements say that the answers fit each other and fit what has just happened.

## Main results

* `Tracker.covers_after_advance` — a position that was threaded into a cursor need not be read again
* `Tracker.covers_iff_covers_floor` — a cursor covers what its floor covers, so a segment without
  lag has nothing to read up to the head
-/

namespace StreamProgress

namespace Tracker

variable {t t' : Tracker} {position : Cursor} {time : UInt64} {outcome : Outcome}

/-! ### Steps and questions -/

@[simp] theorem cursor_change (t : Tracker) (time : UInt64) (level : Level) (message : String)
    (cursor : Option Cursor) : (t.change time level message cursor).cursor = cursor := rfl

/-- An advance of a tracker is an advance of its cursor. -/
theorem advance_eq_ok_iff :
    t.advance position time = .ok (outcome, t') ↔
      ∃ next, Cursor.advanceFrom t.cursor position = .ok next ∧
        outcome = Outcome.ofStep t.cursor next ∧
          t' = t.change time outcome.level outcome.message (some next) := by
  simp only [advance, Except.bind_eq_ok_iff]
  constructor
  · rintro ⟨next, hnext, h⟩
    obtain ⟨rfl, rfl⟩ := Prod.mk.inj (Except.ok.inj h)
    exact ⟨next, hnext, rfl, rfl⟩
  · rintro ⟨next, hnext, rfl, rfl⟩
    exact ⟨next, hnext, rfl⟩

/-- Nothing up to a position has to be read iff the cursor is present and covers the position. -/
theorem requiresReplay_eq_ok_false_iff :
    t.requiresReplay position = .ok false ↔ Cursor.halfCovers t.cursor position = .ok true := by
  simp only [requiresReplay, Except.bind_eq_ok_iff]
  constructor
  · rintro ⟨covered, hcovered, h⟩
    rw [hcovered, Bool.not_eq_eq_eq_not.1 (Except.ok.inj h)]
    rfl
  · intro h
    exact ⟨true, h, rfl⟩

theorem lag_of_floor {head : UInt64} {p : Position}
    (h : Cursor.floorOf t.cursor = .ok (some p)) :
    t.lag head = .ok (some (Count.sub head p.number)) := by
  rw [lag, h]
  rfl

theorem lag_of_no_floor {head : UInt64} (h : Cursor.floorOf t.cursor = .ok none) :
    t.lag head = .ok none := by
  rw [lag, h]
  rfl

theorem sub_eq_zero_iff {m n : UInt64} : Count.sub m n = 0 ↔ m ≤ n := by
  rw [← UInt64.toNat_inj, Count.toNat_sub, UInt64.toNat_zero, UInt64.le_iff_toNat_le]
  omega

/-! ### After an advance -/

/-- **What has been read is covered.** A cursor that was advanced by a position, or raised to it,
covers the position, whatever the cursor was made of; so right after an advance the tracker does not
ask for the position again. -/
theorem covers_after_advance (x : Position) :
    (∀ c next, Cursor.advanceFrom c (.plain x) = .ok next → next.covers (.plain x) = .ok true) ∧
      (∀ c next, Cursor.upperBound c (.plain x) = .ok next → next.covers (.plain x) = .ok true) ∧
        ∀ t time outcome t', Tracker.advance t (.plain x) time = .ok (outcome, t') →
          t'.requiresReplay (.plain x) = .ok false := by
  have hadvance : ∀ c next, Cursor.advanceFrom c (.plain x) = .ok next →
      next.covers (.plain x) = .ok true := by
    intro c next h
    cases c with
    | none =>
      obtain rfl : Cursor.plain x = next := Except.ok.inj h
      exact Cursor.covers_self x
    | some c => exact Cursor.covers_of_advance h
  refine ⟨hadvance, fun c next h => Cursor.covers_of_upperBound h, ?_⟩
  intro t time outcome t' h
  obtain ⟨next, hnext, -, rfl⟩ := advance_eq_ok_iff.1 h
  have hcovers : next.covers (.plain x) = .ok true := hadvance _ _ hnext
  exact requiresReplay_eq_ok_false_iff.2 hcovers

/-- A replay in one half and nothing in the other: the replay reads again and the absent half
starts. -/
theorem covers_after_advance_nested :
    Cursor.advanceFrom
        (some (.merged (some (.replay (.sequence 9) none true)) none false false))
        (.plain (.sequence 7)) =
      .ok (.merged (some (.replay (.sequence 9) (some (.sequence 7)) true)) (some (.sequence 7))
        true true) ∧
      (Cursor.merged (some (.replay (.sequence 9) (some (.sequence 7)) true))
        (some (.sequence 7)) true true).covers (.plain (.sequence 7)) = .ok true ∧
      (∃ next, Cursor.upperBound
          (.merged (some (.replay (.sequence 9) none true)) none false false)
          (.plain (.sequence 7)) = .ok next ∧ next.covers (.plain (.sequence 7)) = .ok true) ∧
        ∃ outcome t', Tracker.advance
            (start "orders-7"
              (some (.merged (some (.replay (.sequence 9) none true)) none false false)) {})
            (.plain (.sequence 7)) 10 = .ok (outcome, t') ∧
          t'.requiresReplay (.plain (.sequence 7)) = .ok false := by
  obtain ⟨hadvance, hraise, htracker⟩ := covers_after_advance (.sequence 7)
  refine ⟨rfl, ?_, ⟨_, rfl, ?_⟩, _, _, rfl, ?_⟩
  · exact hadvance
      (some (.merged (some (.replay (.sequence 9) none true)) none false false)) _ rfl
  · exact hraise (.merged (some (.replay (.sequence 9) none true)) none false false) _ rfl
  · exact htracker
      (start "orders-7"
        (some (.merged (some (.replay (.sequence 9) none true)) none false false)) {})
      10 _ _ rfl

/-! ### Coverage and lag -/

/-- **Coverage is decided by the floor.** A cursor covers a position iff it has a floor that covers
the position, and if it has a floor the two answers agree, faults included. So a tracker whose floor
is an index, or absent, is without lag exactly when it does not ask for the head. -/
theorem covers_iff_covers_floor :
    (∀ (c : Cursor) (x : Position), c.covers (.plain x) = .ok true ↔
        ∃ b, c.floor = .ok (some b) ∧ (Cursor.plain b).covers (.plain x) = .ok true) ∧
      (∀ (c : Cursor) (x b : Position), c.floor = .ok (some b) →
        c.covers (.plain x) = (Cursor.plain b).covers (.plain x)) ∧
        ∀ (t : Tracker) (head : UInt64),
          (Cursor.floorOf t.cursor = .ok none ∨
            ∃ i, Cursor.floorOf t.cursor = .ok (some (.sequence i))) →
          (t.lag head = .ok (some 0) ↔ t.requiresReplay (.sequence head) = .ok false) := by
  refine ⟨fun c x => Cursor.covers_eq_ok_true_iff, fun c x b h => Cursor.covers_of_floor h, ?_⟩
  intro t head h
  rw [requiresReplay_eq_ok_false_iff, Cursor.halfCovers_eq_ok_true_iff]
  obtain hnone | ⟨i, hi⟩ := h
  · rw [lag_of_no_floor hnone]
    refine ⟨fun h => by simp at h, ?_⟩
    rintro ⟨c, hc, hcovers⟩
    obtain ⟨b, hb, -⟩ := Cursor.exists_floor_of_covers hcovers
    rw [Option.mem_def.1 hc] at hnone
    rw [show c.floor = .ok none from hnone] at hb
    cases hb
  · obtain ⟨c, hc, hfloor⟩ := Cursor.floorOf_eq_ok_some_iff.1 hi
    rw [lag_of_floor hi, Except.ok.injEq, Option.some.injEq, Position.number, sub_eq_zero_iff]
    constructor
    · intro hle
      exact ⟨c, hc, Cursor.covers_eq_ok_true_iff.2
        ⟨_, hfloor, Position.sequence_le_sequence.2 hle⟩⟩
    · rintro ⟨d, hd, hcovers⟩
      obtain rfl := Option.mem_unique hc hd
      rw [Cursor.sequence, Cursor.covers_of_floor hfloor] at hcovers
      exact Position.sequence_le_sequence.1 hcovers

/-- The upper half is a replay. What it had read before its reset is no part of the floor, so a
tracker has read up to 3 and no further. -/
theorem covers_iff_covers_floor_halves :
    (Cursor.merged (some (.sequence 3)) (some (.replay (.sequence 9) (some (.sequence 5)) true))
        true false).floor = .ok (some (.sequence 3)) ∧
      (Cursor.merged (some (.sequence 3)) (some (.replay (.sequence 9) (some (.sequence 5)) true))
        true false).covers (.sequence 4) = .ok false ∧
      (start "orders-7" (some (.merged (some (.sequence 3))
        (some (.replay (.sequence 9) (some (.sequence 5)) true)) true false)) {}).requiresReplay
          (.sequence 3) = .ok false := by
  obtain ⟨-, hfloor, hlag⟩ := covers_iff_covers_floor
  refine ⟨rfl, ?_, ?_⟩
  · exact hfloor (.merged (some (.sequence 3))
      (some (.replay (.sequence 9) (some (.sequence 5)) true)) true false) (.sequence 4)
      (.sequence 3) rfl
  · exact (hlag (start "orders-7" (some (.merged (some (.sequence 3))
      (some (.replay (.sequence 9) (some (.sequence 5)) true)) true false)) {}) 3
      (.inr ⟨3, rfl⟩)).1 rfl

end Tracker

end StreamProgress
