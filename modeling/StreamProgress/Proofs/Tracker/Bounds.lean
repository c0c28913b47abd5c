import StreamProgress.Proofs.Cursor.Faults
import StreamProgress.Proofs.Cursor.Raising
import StreamProgress.Proofs.Position.Number
import StreamProgress.Proofs.Tracker.Run

/-!
# The bounds of a tracked segment

What the operations do to the bounds of a cursor decides what a tracker answers: it asks for what
its floor does not cover, and its lag is counted from the floor.

## Upwards

An advance joins both bounds of a merge tree with the position. The floor never falls, a covering
position has no smaller number, and a saturating difference shrinks with it, so the lag never grows
by an advance. An absent half starts at the position, after which there is a lag.

## Downwards

Merging and reconciling only take away. A merge covers what both segments cover, whether it is kept
as a pair or one of two equal cursors stands for both. Reconciling meets the cursor with the
sibling, and of that the coverage and both bounds are known. None of this depends on what the
cursors are made of; that reconciling succeeds does.

## Main results

* `Tracker.bounds_of_raised_mergeTree` — advances and raises
* `Tracker.coverage_of_siblings` — merging and reconciling
-/

namespace StreamProgress

namespace Tracker

variable {t : Tracker} {upper : Option Cursor} {c : Cursor} {k : Kind} {s y : Position}
  {time : UInt64}

/-! ### Upwards -/

/-- A floor that is raised has no larger lag. -/
theorem lag_le_of_raise {lo : Option Position} {lo' : Position} {x : Position}
    (h : Position.raise lo x = .ok lo') (head : UInt64) :
    ∀ before ∈ lo.map fun p => Count.sub head p.number, Count.sub head lo'.number ≤ before := by
  cases lo with
  | none => nofun
  | some p =>
    rintro _ ⟨⟩
    exact Count.sub_le_sub (Position.number_le_number (Position.le_join_left h)) head

/-- **Both bounds of a merge tree are joined with the position.** Take a merged cursor over plain
positions of one kind, any part of which may be absent.

An advance by a position of the kind succeeds, and so does a raise. In both cases the new floor is
the old one joined with the position, or the position itself where there was no floor, and the new
ceiling is the join of the position and of all leaves that are present. Therefore, if the cursor is
raised by several positions in turn, neither their order nor repetition shows in the bounds. A
tracker with such a cursor has a lag after an advance, which is not larger than the one before. -/
theorem bounds_of_raised_mergeTree {m : Cursor} (h : Cursor.MergeTree k m)
    (hmerged : m.kind = .merged) :
    (∀ x : Position, x.kind = k →
        ∃ lo lo' hi, m.floor = .ok lo ∧ Position.raise lo x = .ok lo' ∧
          x.joinAll m.positions = .ok hi ∧
            (∃ r, m.advance (.plain x) = .ok r ∧ r.HasBounds lo' hi) ∧
              ∃ r, m.upperBound (.plain x) = .ok r ∧ r.HasBounds lo' hi) ∧
      (∀ xs ys : List Position, xs ≠ [] → (∀ x ∈ xs, x.kind = k) → (∀ x, x ∈ xs ↔ x ∈ ys) →
        ∃ r r' lo hi, m.raiseAll xs = .ok r ∧ m.raiseAll ys = .ok r' ∧ r.HasBounds lo hi ∧
          r'.HasBounds lo hi) ∧
        ∀ (t : Tracker) (x : Position) (time head : UInt64), t.cursor = some m → x.kind = k →
          ∃ outcome t' before after, t.advance (.plain x) time = .ok (outcome, t') ∧
            t.lag head = .ok before ∧ t'.lag head = .ok (some after) ∧
              ∀ n ∈ before, after ≤ n := by
  have hwraps : m.kind.wraps = true := by rw [hmerged]; rfl
  refine ⟨?_, ?_, ?_⟩
  · intro x hx
    obtain ⟨r, lo, lo', hi, hr, hlo, hraise, hhi, hbounds⟩ := h.exists_advance_hasBounds hwraps hx
    obtain ⟨lower, upper, lowerAdvanced, upperAdvanced, rfl, -, -⟩ := h.eq_merged_of_wraps hwraps
    obtain ⟨r', hr', hsame⟩ := Cursor.exists_upperBound_of_advance hr
    exact ⟨lo, lo', hi, hlo, hraise, hhi, ⟨r, hr, hbounds⟩, r', hr', hsame hbounds⟩
  · intro xs ys hne hkind hmem
    have hne' : ys ≠ [] := by
      rintro rfl
      exact hne (List.eq_nil_iff_forall_not_mem.2 fun x hx => by simpa using (hmem x).1 hx)
    obtain ⟨r, hr, hraised⟩ := h.exists_raiseAll hne hkind
    obtain ⟨r', hr', hraised'⟩ := h.exists_raiseAll hne' fun x hx => hkind x ((hmem x).2 hx)
    obtain ⟨lo, hi, hbounds, hbounds'⟩ := hraised.bounds_eq hraised' hmem
    exact ⟨r, r', lo, hi, hr, hr', hbounds, hbounds'⟩
  · intro t x time head ht hx
    obtain ⟨r, lo, lo', hi, hr, hlo, hraise, -, hbounds⟩ := h.exists_advance_hasBounds hwraps hx
    obtain ⟨t', hstep, ht'⟩ := advance_of_cursor ht hr time
    have hfloor : Cursor.floorOf t.cursor = .ok lo := by rw [ht]; exact hlo
    have hfloor' : Cursor.floorOf t'.cursor = .ok (some lo') := by rw [ht']; exact hbounds.floor
    have hlag : t.lag head = .ok (lo.map fun p => Count.sub head p.number) := by
      rw [lag, hfloor]
      rfl
    exact ⟨_, t', _, _, hstep, hlag, lag_of_floor hfloor', lag_le_of_raise hraise head⟩

/-- An absent half two merges deep. The floor was absent and is the position, the offset of the
partition `a` is raised in one leaf only, and the lag is counted from the position. -/
theorem bounds_of_raised_mergeTree_nested :
    ∃ m x, m = Cursor.merged
        (some (.merged (some (.partitions (.ofPairs [("a", 1), ("b", 4)]))) none true false))
        (some (.partitions (.ofPairs [("a", 3)]))) false false ∧
      x = .partitions (.ofPairs [("a", 2)]) ∧
        (∃ r, m.advance (.plain x) = .ok r ∧
          r.HasBounds x (.partitions (.ofPairs [("a", 3), ("b", 4)]))) ∧
        (∃ r r' lo hi, m.raiseAll [x, .partitions (.ofPairs [("c", 5)])] = .ok r ∧
          m.raiseAll [.partitions (.ofPairs [("c", 5)]), x, x] = .ok r' ∧ r.HasBounds lo hi ∧
            r'.HasBounds lo hi) ∧
          ∃ outcome t' after,
            (start "orders-7" (some m) {}).advance (.plain x) 10 = .ok (outcome, t') ∧
              t'.lag 9 = .ok (some after) := by
  obtain ⟨m, hm⟩ : ∃ m, m = Cursor.merged
      (some (.merged (some (.partitions (.ofPairs [("a", 1), ("b", 4)]))) none true false))
      (some (.partitions (.ofPairs [("a", 3)]))) false false := ⟨_, rfl⟩
  have htree : m.MergeTree .partitionOffsets := by
    subst hm
    refine .node ?_ ?_
    · rintro _ ⟨⟩
      refine .node ?_ nofun
      rintro _ ⟨⟩
      exact .leaf rfl
    · rintro _ ⟨⟩
      exact .leaf rfl
  have hmerged : m.kind = .merged := by rw [hm]; rfl
  obtain ⟨hbounds, hraised, hlag⟩ := bounds_of_raised_mergeTree htree hmerged
  refine ⟨m, .partitions (.ofPairs [("a", 2)]), hm, rfl, ?_, ?_, ?_⟩
  · obtain ⟨lo, lo', hi, hlo, hraise, hhi, ⟨r, hr, hr'⟩, -⟩ :=
      hbounds (.partitions (.ofPairs [("a", 2)])) rfl
    subst hm
    obtain rfl : none = lo := Except.ok.inj hlo
    obtain rfl := Except.ok.inj hraise
    obtain rfl : hi = .partitions (.ofPairs [("a", 3), ("b", 4)]) := (Except.ok.inj hhi).symm
    exact ⟨r, hr, hr'⟩
  · refine hraised _ _ (List.cons_ne_nil _ _) ?_ ?_
    · simp [Position.kind]
    · simp [or_comm]
  · obtain ⟨outcome, t', before, after, hstep, -, hafter, -⟩ :=
      hlag (start "orders-7" (some m) {}) (.partitions (.ofPairs [("a", 2)])) 10 9 rfl rfl
    exact ⟨outcome, t', after, hstep, hafter⟩

/-! ### Downwards -/

/-- A merge requires to be read again what one of the two segments has not read. -/
theorem requiresReplay_mergeWith_iff (t : Tracker) (upper : Option Cursor) (time : UInt64)
    (x : Cursor) :
    (t.mergeWith upper time).requiresReplay x = .ok false ↔
      ∃ c ∈ t.cursor, ∃ u ∈ upper, c.covers x = .ok true ∧ u.covers x = .ok true := by
  rw [requiresReplay_eq_ok_false_iff, mergeWith, cursor_change, Cursor.halfCovers_merge_iff,
    Cursor.halfCovers_eq_ok_true_iff, Cursor.halfCovers_eq_ok_true_iff]
  constructor
  · rintro ⟨⟨c, hc, hcovers⟩, u, hu, hucovers⟩
    exact ⟨c, hc, u, hu, hcovers, hucovers⟩
  · rintro ⟨c, hc, u, hu, hcovers, hucovers⟩
    exact ⟨⟨c, hc, hcovers⟩, u, hu, hucovers⟩

theorem reconcile_eq_ok_iff {t' : Tracker} {sibling : Cursor} (hc : t.cursor = some c) :
    t.reconcile sibling time = .ok t' ↔ ∃ lowered, c.lowerBound sibling = .ok lowered ∧
      t' = t.change time .debug "cursor reconciled with sibling" (some lowered) := by
  simp only [reconcile, hc, Except.bind_eq_ok_iff]
  constructor
  · rintro ⟨lowered, hlowered, h⟩
    exact ⟨lowered, hlowered, (Except.ok.inj h).symm⟩
  · rintro ⟨lowered, hlowered, rfl⟩
    exact ⟨lowered, hlowered, rfl⟩

/-- **Merging and reconciling intersect coverage.** After a merge nothing up to a position has to be
read iff both segments had a cursor and both covered the position.

A segment that has started is reconciled with a position of its kind, whatever its cursor is made of
(an empty merge apart). What has been reconciled covers what both the cursor and the position
covered, and both bounds were met with the position, or are still absent. A segment that has not
started stays what it was. -/
theorem coverage_of_siblings :
    (∀ (t : Tracker) (upper : Option Cursor) (time : UInt64) (y : Position),
        (t.mergeWith upper time).requiresReplay (.plain y) = .ok false ↔
          ∃ c ∈ t.cursor, ∃ u ∈ upper, c.covers (.plain y) = .ok true ∧
            u.covers (.plain y) = .ok true) ∧
      (∀ (t : Tracker) (c : Cursor) (k : Kind) (s : Position) (time : UInt64), t.cursor = some c →
        c.MadeOf (fun p => p.kind = k) → s.kind = k → ∃ t', t.reconcile (.plain s) time = .ok t') ∧
      (∀ (t t' : Tracker) (c : Cursor) (s : Position) (time : UInt64), t.cursor = some c →
        t.reconcile (.plain s) time = .ok t' → ∃ c', t'.cursor = some c' ∧
          (∀ y : Position, t'.requiresReplay (.plain y) = .ok false ↔
            c.covers (.plain y) = .ok true ∧ (Cursor.plain s).covers (.plain y) = .ok true) ∧
          Cursor.LoweredBy s c.floor c'.floor ∧ Cursor.LoweredBy s c.ceiling c'.ceiling) ∧
        ∀ (t : Tracker) (sibling : Cursor) (time : UInt64), t.cursor = none →
          t.reconcile sibling time = .ok t := by
  refine ⟨?_, ?_, ?_, ?_⟩
  · intro t upper time y
    exact requiresReplay_mergeWith_iff t upper time (.plain y)
  · intro t c k s time hc hmade hs
    have hends := (Cursor.setting_ofKind k).ends_lowerBound hmade ⟨s, rfl, hs⟩
    obtain ⟨lowered, hlowered, -⟩ := hends.exists_eq_ok
    exact ⟨_, (reconcile_eq_ok_iff hc).2 ⟨lowered, hlowered, rfl⟩⟩
  · intro t t' c s time hc h
    obtain ⟨lowered, hlowered, rfl⟩ := (reconcile_eq_ok_iff hc).1 h
    refine ⟨lowered, rfl, fun y => ?_, Cursor.floor_of_lowerBound hlowered,
      Cursor.ceiling_of_lowerBound hlowered⟩
    rw [requiresReplay_eq_ok_false_iff, cursor_change, Cursor.halfCovers]
    exact Cursor.covers_lowerBound_iff hlowered
  · intro t sibling time hc
    rw [reconcile, hc]

/-- The lower half is a replay, whose reset point is not lowered. The floor and the ceiling are
bounded by the sibling in different partitions. -/
theorem coverage_of_siblings_replay :
    ∃ c s y, c = Cursor.merged
        (some (.replay (.partitions (.ofPairs [("a", 9)]))
          (some (.partitions (.ofPairs [("a", 5), ("b", 2)]))) true))
        (some (.partitions (.ofPairs [("a", 4), ("b", 6)]))) false false ∧
      s = .partitions (.ofPairs [("a", 3), ("b", 4)]) ∧
      y = .partitions (.ofPairs [("a", 3), ("b", 2)]) ∧
        ((start "orders-7" (some c) {}).mergeWith (some (.plain s)) 10).requiresReplay (.plain y) =
          .ok false ∧
        ∃ t' c', (start "orders-7" (some c) {}).reconcile (.plain s) 10 = .ok t' ∧
          t'.cursor = some c' ∧ t'.requiresReplay (.plain y) = .ok false ∧
            Cursor.LoweredBy s c.floor c'.floor ∧ Cursor.LoweredBy s c.ceiling c'.ceiling := by
  obtain ⟨c, hc⟩ : ∃ c, c = Cursor.merged
      (some (.replay (.partitions (.ofPairs [("a", 9)]))
        (some (.partitions (.ofPairs [("a", 5), ("b", 2)]))) true))
      (some (.partitions (.ofPairs [("a", 4), ("b", 6)]))) false false := ⟨_, rfl⟩
  have hplain (offsets : Offsets) :
      (Cursor.partitions offsets).MadeOf fun p => p.kind = .partitionOffsets := .plain rfl
  have hmade : c.MadeOf fun p => p.kind = .partitionOffsets := by
    subst hc
    exact .merged rfl (Cursor.MadeOf.replay (hplain _) (hplain _).some).some (hplain _).some
  have hcovers : c.covers (.plain (.partitions (.ofPairs [("a", 3), ("b", 2)]))) = .ok true := by
    subst hc
    rfl
  obtain ⟨hmerge, hsucceeds, hreconcile, -⟩ := coverage_of_siblings
  refine ⟨c, .partitions (.ofPairs [("a", 3), ("b", 4)]), .partitions (.ofPairs [("a", 3), ("b", 2)]),
    hc, rfl, rfl, ?_, ?_⟩
  · exact (hmerge (start "orders-7" (some c) {}) _ 10 _).2 ⟨c, rfl, _, rfl, hcovers, rfl⟩
  · obtain ⟨t', ht'⟩ := hsucceeds (start "orders-7" (some c) {}) c .partitionOffsets
      (.partitions (.ofPairs [("a", 3), ("b", 4)])) 10 rfl hmade rfl
    obtain ⟨c', hc', hreplay, hfloor, hceiling⟩ := hreconcile _ t' c _ 10 rfl ht'
    exact ⟨t', c', ht', hc', (hreplay _).2 ⟨hcovers, rfl⟩, hfloor, hceiling⟩

end Tracker

end StreamProgress
