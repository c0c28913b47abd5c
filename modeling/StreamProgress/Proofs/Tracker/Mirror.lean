import StreamProgress.Proofs.Cursor.Mirror
import StreamProgress.Proofs.Tracker.Faults

/-!
# Mirrored segments

Which half of a merge is the lower one does not matter to a segment: a tracker whose cursor is
mirrored moves to the mirrored cursor and reports the same outcome. The cursors are compared in
`Cursor.exists_advance_mirror` and its companions; what is added here is the outcome, which is taken
from the cursors before and after the step (`Outcome.variant_ofStep`).

The halves that an outcome reports as moved are not the mirrored ones in general. If a merge converges
to halves that are merged themselves, the flags are those of the half that is kept.

## Main definitions

* `Outcome.variant` — an outcome without the halves that it reports

## Main results

* `Tracker.agrees_mirror` — mirrored segments
-/

namespace StreamProgress

namespace Outcome

/-- What an outcome says but for which halves of a merge have moved. -/
def variant : Outcome → Outcome
  | .merging _ _ => .merging false false
  | other => other

/-- What a step is reported as depends on four things about it. -/
theorem variant_ofStep (c next : Cursor) :
    (ofStep (some c) next).variant =
      if next.kind = .merged then .merging false false
      else if Cursor.isMergeInProgress (some c) && !Cursor.isMergeInProgress (some next) then
        .mergeCompleted
      else if c == next then .unchanged
      else .advanced := by
  cases next with
  | merged lower upper lowerAdvanced upperAdvanced => rfl
  | plain p =>
    rw [if_neg (by cases p <;> simp [Cursor.kind, Position.kind])]
    simp only [ofStep]
    split
    · rfl
    · split <;> rfl
  | replay reset current replaying =>
    rw [if_neg (by simp [Cursor.kind])]
    simp only [ofStep]
    split
    · rfl
    · split <;> rfl

end Outcome

namespace Cursor

variable {c c' r r' : Cursor} {k : Kind}

theorem isMergeInProgress_mirror (c : Cursor) :
    isMergeInProgress (some c.mirror) = isMergeInProgress (some c) := by
  rw [isMergeInProgress, isMergeInProgress, unwrapHalf, unwrapHalf, unwrap_merged_mirror,
    Option.isSome_map]

theorem Reflects.isMergeInProgress (h : c'.Reflects c) :
    isMergeInProgress (some c') = isMergeInProgress (some c) := by
  have hbare (c : Cursor) : (unwrap .merged c.bare).isSome = (unwrap .merged c).isSome := by
    rw [unwrap_merged_bare, Option.isSome_map]
  rw [← isMergeInProgress_mirror c]
  show (unwrap .merged c').isSome = (unwrap .merged c.mirror).isSome
  rw [← hbare c', h, hbare]

theorem mergePosition_mirror (hc : c.MadeOf fun p => p.kind = k) :
    mergePosition (some c.mirror) = mergePosition (some c) := by
  rw [mergePosition, mergePosition, unwrapHalf, unwrapHalf, unwrap_merged_mirror]
  cases hfound : unwrap .merged c with
  | none => rfl
  | some found =>
    rw [Option.map_some]
    dsimp only
    rw [ceiling_mirror (hc.unwrap_merged hfound)]

/-- A step from a mirrored cursor to the mirror is reported as the step is. -/
theorem Reflects.variant_ofStep (hc : c'.Reflects c) (hr : r'.Reflects r) :
    (Outcome.ofStep (some c') r').variant = (Outcome.ofStep (some c) r).variant := by
  rw [Outcome.variant_ofStep, Outcome.variant_ofStep, hr.kind, hc.isMergeInProgress,
    hr.isMergeInProgress, hc.beq hr]

end Cursor

namespace Tracker

variable {t u : Tracker} {c : Cursor} {x : Position} {k : Kind}

/-- **Mirrored segments behave alike.** Take a cursor without empty merges whose positions, at
whatever places in it, are of one kind, its mirror, and a position of the kind. Lowering, raising and
advancing come to mirrored results, up to flags. Coverage, floor, ceiling, whether a merge is in
progress and where it completes are the same. Trackers with these cursors advance to the position with
outcomes that differ at most in the halves that they report as moved. -/
theorem agrees_mirror (hformed : c.wellFormed = true) (hkind : ∀ p ∈ c.parts, p.kind = k)
    (hx : x.kind = k) (ht : t.cursor = some c) (hu : u.cursor = some c.mirror) (time time' : UInt64) :
    (∃ r r', c.lowerBound (.plain x) = .ok r ∧ c.mirror.lowerBound (.plain x) = .ok r' ∧
        (r' == r.mirror) = true) ∧
      (∃ r r', c.upperBound (.plain x) = .ok r ∧ c.mirror.upperBound (.plain x) = .ok r' ∧
        (r' == r.mirror) = true) ∧
      (∃ r r', c.advance (.plain x) = .ok r ∧ c.mirror.advance (.plain x) = .ok r' ∧
        (r' == r.mirror) = true) ∧
      (∃ b, c.covers (.plain x) = .ok b ∧ c.mirror.covers (.plain x) = .ok b) ∧
      (∃ o, c.floor = .ok o ∧ c.mirror.floor = .ok o) ∧
      (∃ o, c.ceiling = .ok o ∧ c.mirror.ceiling = .ok o) ∧
      u.isMergeInProgress = t.isMergeInProgress ∧
      (∃ n, t.mergePosition = .ok n ∧ u.mergePosition = .ok n) ∧
      ∃ outcome t' outcome' u', t.advance (.plain x) time = .ok (outcome, t') ∧
        u.advance (.plain x) time' = .ok (outcome', u') ∧ outcome'.variant = outcome.variant := by
  have hc : c.MadeOf fun p => p.kind = k := Cursor.madeOf_iff.2 ⟨hformed, hkind⟩
  have hs := Cursor.setting_ofKind k
  have hplain : ∃ p : Position, Cursor.plain x = .plain p ∧ p.kind = k := ⟨x, rfl, hx⟩
  obtain ⟨lowered, hlowered, -⟩ := (hs.ends_lowerBound hc hplain).exists_eq_ok
  obtain ⟨raised, hraised, -⟩ := (hs.ends_upperBound hc hplain).exists_eq_ok
  obtain ⟨next, hnext, -⟩ := (hs.ends_advance hc hplain).exists_eq_ok
  obtain ⟨b, hb, -⟩ := (hs.ends_covers hc hplain).exists_eq_ok
  obtain ⟨low, hlow, -⟩ := (hs.ends_floor hc).exists_eq_ok
  obtain ⟨top, htop, -⟩ := (hs.ends_ceiling hc).exists_eq_ok
  obtain ⟨lowered', hlowered', hlreflects⟩ := Cursor.exists_lowerBound_mirror hlowered
  obtain ⟨raised', hraised', hrreflects⟩ := Cursor.exists_upperBound_mirror hc hx hraised
  obtain ⟨next', hnext', hnreflects⟩ := Cursor.exists_advance_mirror hc hx hnext
  refine ⟨⟨lowered, lowered', hlowered, hlowered', Cursor.reflects_iff.1 hlreflects⟩,
    ⟨raised, raised', hraised, hraised', Cursor.reflects_iff.1 hrreflects⟩,
    ⟨next, next', hnext, hnext', Cursor.reflects_iff.1 hnreflects⟩,
    ⟨b, hb, Cursor.covers_mirror hc hx ▸ hb⟩, ⟨low, hlow, Cursor.floor_mirror hc ▸ hlow⟩,
    ⟨top, htop, Cursor.ceiling_mirror hc ▸ htop⟩, ?_, ?_, ?_⟩
  · rw [isMergeInProgress, isMergeInProgress, ht, hu, Cursor.isMergeInProgress_mirror]
  · obtain ⟨n, hn, -⟩ := (ends_mergePosition hs (ht ▸ hc.some)).exists_eq_ok
    refine ⟨n, hn, ?_⟩
    rw [← hn, mergePosition, mergePosition, ht, hu, Cursor.mergePosition_mirror hc]
  · refine ⟨_, _, _, _, advance_eq_ok_iff.2 ⟨next, ?_, rfl, rfl⟩,
      advance_eq_ok_iff.2 ⟨next', ?_, rfl, rfl⟩, ?_⟩
    · rw [ht]
      exact hnext
    · rw [hu]
      exact hnext'
    · rw [ht, hu]
      exact (Cursor.reflects_mirror c).variant_ofStep hnreflects

/-- The lower half reads again up to a merged reset point with an absent half, and the upper half is
plain. The position has been read before in partition `a` and is new in partition `b`. -/
theorem agrees_mirror_partitions :
    ∃ c t u, c = Cursor.merged (some (.replay (.merged none
          (some (.partitions (.ofPairs [("a", 4)]))) false false)
          (some (.partitions (.ofPairs [("a", 1)]))) true))
        (some (.partitions (.ofPairs [("a", 2), ("b", 1)]))) true false ∧
      t = start "orders-7" (some c) {} ∧ u = start "orders-7" (some c.mirror) {} ∧
      c.mirror = Cursor.merged (some (.partitions (.ofPairs [("a", 2), ("b", 1)])))
        (some (.replay (.merged (some (.partitions (.ofPairs [("a", 4)]))) none false false)
          (some (.partitions (.ofPairs [("a", 1)]))) true)) false true ∧
      (∃ r r', c.advance (.partitions (.ofPairs [("a", 3), ("b", 2)])) = .ok r ∧
        c.mirror.advance (.partitions (.ofPairs [("a", 3), ("b", 2)])) = .ok r' ∧
        (r' == r.mirror) = true) ∧
      (∃ o, c.floor = .ok o ∧ c.mirror.floor = .ok o) ∧
      ∃ outcome t' outcome' u',
        t.advance (.partitions (.ofPairs [("a", 3), ("b", 2)])) 10 = .ok (outcome, t') ∧
        u.advance (.partitions (.ofPairs [("a", 3), ("b", 2)])) 11 = .ok (outcome', u') ∧
        outcome'.variant = outcome.variant := by
  obtain ⟨c, hc⟩ : ∃ c, c = Cursor.merged (some (.replay (.merged none
      (some (.partitions (.ofPairs [("a", 4)]))) false false)
      (some (.partitions (.ofPairs [("a", 1)]))) true))
      (some (.partitions (.ofPairs [("a", 2), ("b", 1)]))) true false := ⟨_, rfl⟩
  have hkind : ∀ p ∈ c.parts, p.kind = .partitionOffsets := by
    subst hc
    decide
  obtain ⟨-, -, hadvance, -, hfloor, -, -, -, houtcome⟩ :=
    agrees_mirror (t := start "orders-7" (some c) {}) (u := start "orders-7" (some c.mirror) {})
      (x := .partitions (.ofPairs [("a", 3), ("b", 2)])) (by rw [hc]; rfl) hkind rfl rfl rfl 10 11
  exact ⟨c, _, _, hc, rfl, rfl, by rw [hc]; rfl, hadvance, hfloor, houtcome⟩

end Tracker

end StreamProgress
