import StreamProgress.Proofs.Cursor.Faults

/-!
# How deep a moving cursor is nested

A cursor can be written and read again up to a nesting of the written form, so what matters of a
segment that moves is that its cursor is not nested deeper by it. A replay takes the position as its
progress and so does an absent half of a merged cursor, and a replay that is raised even puts its
advanced reset point there. None of this is deeper than what stands beside it: a progress stands
beside its reset point, and an absent half beside a present one, and both of them have positions of
the same kind in them (`Cursor.depth_plain_le`). With a position of another kind that would be
wrong, but then the operations fail.

Only putting halves together opens a bracket (`Cursor.depthOf_merge_le`).

## Main results

* `Cursor.depth_advance_le`, `depth_lowerBound_le` — a cursor that moves is not nested deeper
* `Cursor.depthOf_merge_le` — two halves put together
-/

namespace StreamProgress

namespace Cursor

variable {c r : Cursor} {half lower upper l u : Option Cursor} {k : Kind} {p q x : Position}

/-! ### Positions -/

/-- Plain cursors of one kind are nested alike. -/
theorem depth_plain_congr (h : p.kind = q.kind) : (plain p).depth = (plain q).depth := by
  cases p <;> cases q <;> first | rfl | cases h

theorem depth_plain_le_two (p : Position) : (plain p).depth ≤ 2 := by
  cases p <;> simp [depth]

theorem depth_lt_merged (lower upper : Option Cursor) (lowerAdvanced upperAdvanced : Bool) :
    max (depthOf lower) (depthOf upper) < (merged lower upper lowerAdvanced upperAdvanced).depth := by
  rw [depth]
  omega

theorem depth_lt_replay (reset : Cursor) (current : Option Cursor) (replaying : Bool) :
    max reset.depth (depthOf current) < (replay reset current replaying).depth := by
  rw [depth]
  omega

/-- Of two halves one is as deep as a position of their kind, if one is present. -/
theorem depth_plain_le_halves (hpresent : (lower.isSome || upper.isSome) = true)
    (hlower : ∀ c ∈ lower, (plain x).depth ≤ c.depth)
    (hupper : ∀ c ∈ upper, (plain x).depth ≤ c.depth) :
    (plain x).depth ≤ max (depthOf lower) (depthOf upper) := by
  cases lower with
  | some c => exact (hlower c rfl).trans (le_max_left c.depth _)
  | none =>
    cases upper with
    | some c => exact (hupper c rfl).trans (le_max_right 0 c.depth)
    | none => cases hpresent

/-- **A cursor is nested at least as deep as a position of its kind.** -/
theorem depth_plain_le (hc : c.MadeOf fun p => p.kind = k) (hx : x.kind = k) :
    (plain x).depth ≤ c.depth := by
  induction hc with
  | plain hp => exact (depth_plain_congr (hx.trans hp.symm)).le
  | @replay reset current replaying _ _ ih _ =>
    exact ih.trans ((le_max_left _ _).trans (depth_lt_replay reset current replaying).le)
  | @merged lower upper lowerAdvanced upperAdvanced hpresent _ _ ihLower ihUpper =>
    exact (depth_plain_le_halves hpresent ihLower ihUpper).trans
      (depth_lt_merged lower upper lowerAdvanced upperAdvanced).le

/-! ### Putting together -/

/-- **Two halves that are put together take one bracket around the deeper of them,** at most. -/
theorem depthOf_merge_le (lower upper : Option Cursor) :
    depthOf (merge lower upper) ≤ 1 + max (depthOf lower) (depthOf upper) := by
  cases hm : merge lower upper with
  | none => exact Nat.zero_le _
  | some c =>
    obtain ⟨rfl, -⟩ | ⟨u, rfl, -, -⟩ := eq_of_merge hm
    · exact le_rfl
    · exact (le_max_left c.depth _).trans (Nat.le_add_left _ 1)

theorem depth_mergeSome_le (l u : Cursor) : (mergeSome l u).depth ≤ 1 + max l.depth u.depth := by
  have h := depthOf_merge_le (some l) (some u)
  rwa [merge_some_some] at h

/-! ### Lowering -/

theorem depthOf_lowerHalf_le (h : lowerHalf half (plain x) = .ok l)
    (ih : ∀ c ∈ half, ∀ r, c.lowerBound (plain x) = .ok r → r.depth ≤ c.depth) :
    depthOf l ≤ depthOf half := by
  cases half with
  | none =>
    obtain rfl : none = l := Except.ok.inj h
    exact le_rfl
  | some c =>
    obtain ⟨r, hr, rfl⟩ := lowerHalf_some_eq_ok_iff.1 h
    exact ih c rfl r hr

/-- **A cursor that is lowered is not nested deeper.** -/
theorem depth_lowerBound_le (h : c.lowerBound (plain x) = .ok r) : r.depth ≤ c.depth := by
  induction c generalizing r with
  | plain p =>
    obtain ⟨q, hq, rfl⟩ := lowerBound_plain_eq_ok_iff.1 h
    exact (depth_plain_congr (Position.kind_eq_of_le (Position.meet_le_left hq))).le
  | replay reset current replaying _ ih =>
    obtain ⟨o, ho, rfl⟩ := lowerBound_replay_plain_eq_ok_iff.1 h
    have hcurrent := depthOf_lowerHalf_le ho fun c hc r => ih c hc
    rw [startReplay, depth, depth]
    exact Nat.add_le_add_left (max_le_max le_rfl hcurrent) 1
  | merged lower upper lowerAdvanced upperAdvanced ihLower ihUpper =>
    obtain ⟨l, u, hl, hu, hm⟩ := lowerBound_merged_eq_ok_iff.1 h
    have hlower := depthOf_lowerHalf_le hl fun c hc r => ihLower c hc
    have hupper := depthOf_lowerHalf_le hu fun c hc r => ihUpper c hc
    have hmerge := depthOf_merge_le l u
    rw [hm, depthOf] at hmerge
    rw [depth]
    exact hmerge.trans (Nat.add_le_add_left (max_le_max hlower hupper) 1)

/-! ### Advancing and raising -/

/-- A half that moves is nested as deep as it was, or as the position. -/
theorem HalfMove.depth_le (h : HalfMove (plain x) half r)
    (ih : ∀ c ∈ half, ∀ r, c.advance (plain x) = .ok r → r.depth ≤ c.depth) :
    r.depth ≤ max (plain x).depth (depthOf half) := by
  cases h with
  | started => exact le_max_left _ _
  | joined h =>
    obtain ⟨s, hs, rfl⟩ := upperBound_plain_eq_ok_iff.1 h
    have hdepth := depth_plain_congr (Position.kind_eq_of_le (Position.le_join_right hs))
    exact hdepth.symm.le.trans (le_max_left _ _)
  | kept => exact le_max_right _ r.depth
  | @moved c _ _ _ h => exact (ih c rfl r h).trans (le_max_right _ c.depth)

theorem ReplayMove.depth_le {reset : Cursor} (h : ReplayMove (plain x) reset r)
    (hx : (plain x).depth ≤ reset.depth)
    (hadvance : ∀ r, reset.advance (plain x) = .ok r → r.depth ≤ reset.depth)
    (hraise : ∀ r, reset.upperBound (plain x) = .ok r → r.depth ≤ reset.depth) :
    r.depth ≤ 1 + reset.depth := by
  cases h with
  | reread =>
    rw [depth, depthOf, max_eq_left hx]
  | ended _ _ h => exact (hadvance r h).trans (Nat.le_add_left _ 1)
  | raised _ _ hup h =>
    rw [depth, depthOf]
    exact Nat.add_le_add_left (max_le (hraise _ hup) (hadvance _ h)) 1

/-- The two rules go up the tree together, since a replay both raises and advances its reset
point. -/
theorem depth_le_of_advance_and_upperBound (hc : c.MadeOf fun p => p.kind = k) (hx : x.kind = k) :
    (∀ r, c.advance (plain x) = .ok r → r.depth ≤ c.depth) ∧
      ∀ r, c.upperBound (plain x) = .ok r → r.depth ≤ c.depth := by
  induction hc with
  | @plain p hp =>
    have hdepth := depth_plain_congr (hx.trans hp.symm)
    constructor
    · intro r h
      obtain rfl : plain x = r := Except.ok.inj h
      exact hdepth.le
    · intro r h
      obtain ⟨s, hs, rfl⟩ := upperBound_plain_eq_ok_iff.1 h
      exact (depth_plain_congr (Position.kind_eq_of_le (Position.le_join_left hs))).symm.le
  | @replay reset current replaying hreset _ ih _ =>
    have hmove : ∀ r, (replay reset current replaying).advance (plain x) = .ok r →
        r.depth ≤ (replay reset current replaying).depth := by
      intro r h
      refine ((advance_replay_eq_ok_iff.1 h).depth_le (depth_plain_le hreset hx) ih.1 ih.2).trans ?_
      rw [depth]
      exact Nat.add_le_add_left (le_max_left _ _) 1
    exact ⟨hmove, hmove⟩
  | @merged lower upper lowerAdvanced upperAdvanced hpresent hlower hupper ihLower ihUpper =>
    have hposition := depth_plain_le_halves hpresent (fun c hc => depth_plain_le (hlower c hc) hx)
      fun c hc => depth_plain_le (hupper c hc) hx
    have hhalves {l u : Cursor} (hl : HalfMove (plain x) lower l) (hu : HalfMove (plain x) upper u) :
        max l.depth u.depth ≤ max (depthOf lower) (depthOf upper) := by
      refine max_le ((hl.depth_le fun c hc => (ihLower c hc).1).trans ?_)
        ((hu.depth_le fun c hc => (ihUpper c hc).1).trans ?_)
      · exact max_le hposition (le_max_left _ _)
      · exact max_le hposition (le_max_right _ _)
    constructor
    · intro r h
      cases advance_merged_eq_ok_iff.1 h with
      | converged hl hu =>
        exact ((le_max_left _ _).trans (hhalves hl hu)).trans (depth_lt_merged _ _ _ _).le
      | pending hl hu =>
        rw [depth, depth, depthOf, depthOf]
        exact Nat.add_le_add_left (hhalves hl hu) 1
    · intro r h
      obtain ⟨l, u, hl, hu, rfl⟩ := upperBound_merged_eq_ok_iff.1 h
      rw [depth]
      exact (depth_mergeSome_le l u).trans (Nat.add_le_add_left (hhalves hl hu) 1)

/-- **A cursor that advances is not nested deeper.** -/
theorem depth_advance_le (hc : c.MadeOf fun p => p.kind = k) (hx : x.kind = k)
    (h : c.advance (plain x) = .ok r) : r.depth ≤ c.depth :=
  (depth_le_of_advance_and_upperBound hc hx).1 r h

/-- A segment that starts has a position, with two brackets at most. -/
theorem depth_advanceFrom_le (hhalf : ∀ c ∈ half, c.MadeOf fun p => p.kind = k) (hx : x.kind = k)
    (h : advanceFrom half (plain x) = .ok r) : r.depth ≤ max 2 (depthOf half) := by
  cases half with
  | none =>
    obtain rfl : plain x = r := Except.ok.inj h
    exact (depth_plain_le_two x).trans (le_max_left 2 _)
  | some c => exact (depth_advance_le (hhalf c rfl) hx h).trans (le_max_right 2 c.depth)

end Cursor

end StreamProgress
