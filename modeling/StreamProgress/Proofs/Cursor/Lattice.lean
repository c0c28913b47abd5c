import StreamProgress.Proofs.Cursor.Bounds

/-!
# Plain cursors of one kind as a lattice

Coverage, the lower bound and the upper bound of two cursors are operations of their own, and for
cursors that wrap others they obey no common law. For plain cursors of one kind they are the order
and the bounds of a distributive lattice, and `Cursor.FormLattice` lists what that says of the three
operations as they are called, faults included: any two of the cursors can be compared and have both
bounds.

## Among all cursors

That a bound is the greatest or the least is said against every cursor, not only against plain ones
of the kind. Nothing but a plain cursor of the kind is covered by one, so for the lower bound this is
the same. For the upper bound it is more: a replay or a merge that covers two positions covers their
upper bound as well.

## Main results

* `Cursor.formLattice_of_kind` — the plain cursors of any one kind
* `Cursor.formLattice_plain` — indices and partition offsets, where a partition that was not started
  is less than offset zero
-/

namespace StreamProgress

namespace Cursor

/-- The cursors that are `P` form a distributive lattice under coverage. -/
structure FormLattice (P : Cursor → Prop) : Prop where
  /-- Any two of the cursors can be compared. -/
  exists_covers {a b : Cursor} : P a → P b → ∃ covered, a.covers b = .ok covered
  refl {a : Cursor} : P a → a.covers a = .ok true
  trans {a b c : Cursor} : P a → P b → P c → a.covers b = .ok true → b.covers c = .ok true →
    a.covers c = .ok true
  antisymm {a b : Cursor} : P a → P b → a.covers b = .ok true → b.covers a = .ok true → a = b
  /-- The lower bound is the greatest cursor that both cover. -/
  lowerBound {a b : Cursor} : P a → P b → ∃ m, a.lowerBound b = .ok m ∧ P m ∧
    a.covers m = .ok true ∧ b.covers m = .ok true ∧
      ∀ x : Cursor, a.covers x = .ok true → b.covers x = .ok true → m.covers x = .ok true
  /-- The upper bound is the least cursor that covers both. -/
  upperBound {a b : Cursor} : P a → P b → ∃ j, a.upperBound b = .ok j ∧ P j ∧
    j.covers a = .ok true ∧ j.covers b = .ok true ∧
      ∀ x : Cursor, x.covers a = .ok true → x.covers b = .ok true → x.covers j = .ok true
  /-- A lower bound with an upper bound is the upper bound of two lower bounds. -/
  lowerBound_upperBound {a b c : Cursor} : P a → P b → P c → ∃ j l m r,
    b.upperBound c = .ok j ∧ a.lowerBound b = .ok l ∧ a.lowerBound c = .ok m ∧
      a.lowerBound j = .ok r ∧ l.upperBound m = .ok r
  /-- An upper bound with a lower bound is the lower bound of two upper bounds. -/
  upperBound_lowerBound {a b c : Cursor} : P a → P b → P c → ∃ m j k r,
    b.lowerBound c = .ok m ∧ a.upperBound b = .ok j ∧ a.upperBound c = .ok k ∧
      a.upperBound m = .ok r ∧ j.lowerBound k = .ok r
  covers_iff_upperBound {a b : Cursor} : P a → P b →
    (a.covers b = .ok true ↔ a.upperBound b = .ok a)
  covers_iff_lowerBound {a b : Cursor} : P a → P b →
    (a.covers b = .ok true ↔ a.lowerBound b = .ok b)

variable {p q r x : Position} {c : Cursor}

/-! ### The operations on plain cursors -/

theorem covers_plain_eq_ok_true_iff :
    (plain p).covers c = .ok true ↔ ∃ q, c = plain q ∧ q ≤ p := by
  cases c with
  | plain q => simp [Position.le_iff_covers]
  | replay reset current replaying => simp [covers, asPlain]
  | merged lower upper lowerAdvanced upperAdvanced => simp [covers, asPlain]

theorem lowerBound_plain_iff :
    (plain p).lowerBound (plain q) = .ok (plain r) ↔ p.meet q = .ok r := by
  simp [lowerBound_plain_eq_ok_iff]

theorem upperBound_plain_iff :
    (plain p).upperBound (plain q) = .ok (plain r) ↔ p.join q = .ok r := by
  simp [upperBound_plain_eq_ok_iff]

/-- A cursor of any shape that covers two positions covers their join. -/
theorem covers_join (h : p.join q = .ok r) (hp : c.covers (plain p) = .ok true)
    (hq : c.covers (plain q) = .ok true) : c.covers (plain r) = .ok true := by
  obtain ⟨b, hb, hpb⟩ := covers_eq_ok_true_iff.1 hp
  rw [covers_of_floor hb] at hq ⊢
  exact (Position.join_le_iff h).2 ⟨hpb, hq⟩

/-! ### The lattice -/

/-- **The plain cursors of one kind form a distributive lattice.** -/
theorem formLattice_of_kind (k : Kind) :
    FormLattice fun c => ∃ p : Position, p.kind = k ∧ c = plain p where
  exists_covers := by
    rintro _ _ ⟨p, hp, rfl⟩ ⟨q, hq, rfl⟩
    exact ⟨_, Position.covers_of_kind_eq (hp.trans hq.symm)⟩
  refl := by
    rintro _ ⟨p, -, rfl⟩
    exact covers_self p
  trans := by
    rintro _ _ _ ⟨p, -, rfl⟩ ⟨q, -, rfl⟩ ⟨r, -, rfl⟩ hqp hrq
    exact le_trans (show r ≤ q from hrq) hqp
  antisymm := by
    rintro _ _ ⟨p, -, rfl⟩ ⟨q, -, rfl⟩ hqp hpq
    exact congrArg plain (le_antisymm (show p ≤ q from hpq) hqp)
  lowerBound := by
    rintro _ _ ⟨p, hp, rfl⟩ ⟨q, hq, rfl⟩
    obtain ⟨m, hm⟩ := Position.exists_meet (hp.trans hq.symm)
    have hle := Position.meet_le_left hm
    refine ⟨_, lowerBound_plain_iff.2 hm, ⟨m, (Position.kind_eq_of_le hle).trans hp, rfl⟩, hle,
      Position.meet_le_right hm, ?_⟩
    intro x hpx hqx
    obtain ⟨s, rfl, hsp⟩ := covers_plain_eq_ok_true_iff.1 hpx
    exact (Position.le_meet_iff hm).2 ⟨hsp, hqx⟩
  upperBound := by
    rintro _ _ ⟨p, hp, rfl⟩ ⟨q, hq, rfl⟩
    obtain ⟨j, hj⟩ := Position.exists_join (hp.trans hq.symm)
    have hle := Position.le_join_left hj
    exact ⟨_, upperBound_plain_iff.2 hj, ⟨j, (Position.kind_eq_of_le hle).symm.trans hp, rfl⟩, hle,
      Position.le_join_right hj, fun x => covers_join hj⟩
  lowerBound_upperBound := by
    rintro _ _ _ ⟨p, hp, rfl⟩ ⟨q, hq, rfl⟩ ⟨r, hr, rfl⟩
    obtain ⟨l, hl⟩ := Position.exists_meet (hq.trans hp.symm)
    obtain ⟨m, hm⟩ := Position.exists_meet (hr.trans hp.symm)
    obtain ⟨j, s, hj, hs, hlm⟩ := Position.join_meet_meet hl hm
    exact ⟨_, _, _, _, upperBound_plain_iff.2 hj, lowerBound_plain_iff.2 (Position.meet_comm hl),
      lowerBound_plain_iff.2 (Position.meet_comm hm), lowerBound_plain_iff.2 (Position.meet_comm hs),
      upperBound_plain_iff.2 hlm⟩
  upperBound_lowerBound := by
    rintro _ _ _ ⟨p, hp, rfl⟩ ⟨q, hq, rfl⟩ ⟨r, hr, rfl⟩
    obtain ⟨m, hm⟩ := Position.exists_meet (hq.trans hr.symm)
    obtain ⟨j, hj⟩ := Position.exists_join (hq.trans hp.symm)
    obtain ⟨k, hk⟩ := Position.exists_join (hr.trans hp.symm)
    obtain ⟨s, hs, hjk⟩ := Position.meet_join_join hm hj hk
    exact ⟨_, _, _, _, lowerBound_plain_iff.2 hm, upperBound_plain_iff.2 (Position.join_comm hj),
      upperBound_plain_iff.2 (Position.join_comm hk), upperBound_plain_iff.2 (Position.join_comm hs),
      lowerBound_plain_iff.2 hjk⟩
  covers_iff_upperBound := by
    rintro _ _ ⟨p, -, rfl⟩ ⟨q, -, rfl⟩
    constructor
    · intro hle
      exact upperBound_plain_iff.2 (Position.join_of_le hle)
    · intro h
      exact Position.le_join_right (upperBound_plain_iff.1 h)
  covers_iff_lowerBound := by
    rintro _ _ ⟨p, -, rfl⟩ ⟨q, -, rfl⟩
    constructor
    · intro hle
      exact lowerBound_plain_iff.2 (Position.meet_of_ge hle)
    · intro h
      exact Position.meet_le_left (lowerBound_plain_iff.1 h)

/-- Offset zero of a partition is covered iff the partition was started. -/
theorem covers_raise_zero (a : Offsets) (partition : String) :
    (partitions a).covers (partitions (a.raise partition 0)) = .ok (a.get? partition).isSome := by
  refine congrArg Except.ok (Bool.eq_iff_iff.2 ?_)
  rw [Offsets.covers_iff]
  simp only [Offsets.get?_raise]
  constructor
  · intro h
    cases hp : a.get? partition with
    | some n => rfl
    | none =>
      obtain ⟨m, hm, -⟩ := h partition 0 (by rw [if_pos rfl, hp]; rfl)
      rw [hp] at hm
      cases hm
  · intro hstarted other n hn
    obtain ⟨m, hm⟩ := Option.isSome_iff_exists.1 hstarted
    by_cases heq : partition = other
    · subst heq
      rw [if_pos rfl, hm] at hn
      obtain rfl : max m 0 = n := Option.some.inj hn
      refine ⟨m, hm, ?_⟩
      rw [UInt64.le_iff_toNat_le, Count.toNat_max, UInt64.toNat_zero, Nat.max_zero]
    · rw [if_neg heq] at hn
      exact ⟨n, hn, UInt64.le_refl n⟩

/-- **Indices form a distributive lattice, and so do partition offsets,** where a partition that was
not started is less than offset zero. -/
theorem formLattice_plain :
    (FormLattice fun c => ∃ i, c = sequence i) ∧ (FormLattice fun c => ∃ a, c = partitions a) ∧
      ∀ (a : Offsets) (partition : String),
        (partitions a).covers (partitions (a.raise partition 0)) =
          .ok (a.get? partition).isSome := by
  have hsequence : (fun c => ∃ p : Position, p.kind = .sequence ∧ c = plain p) =
      fun c => ∃ i, c = sequence i := by
    funext c
    refine propext ⟨?_, ?_⟩
    · rintro ⟨p, hp, rfl⟩
      obtain ⟨i, rfl⟩ := Position.exists_index_of_kind hp
      exact ⟨i, rfl⟩
    · rintro ⟨i, rfl⟩
      exact ⟨.sequence i, rfl, rfl⟩
  have hpartitions : (fun c => ∃ p : Position, p.kind = .partitionOffsets ∧ c = plain p) =
      fun c => ∃ a, c = partitions a := by
    funext c
    refine propext ⟨?_, ?_⟩
    · rintro ⟨p, hp, rfl⟩
      cases p with
      | sequence i => cases hp
      | partitions a => exact ⟨a, rfl⟩
    · rintro ⟨a, rfl⟩
      exact ⟨.partitions a, rfl, rfl⟩
  exact ⟨hsequence ▸ formLattice_of_kind .sequence, hpartitions ▸ formLattice_of_kind .partitionOffsets,
    covers_raise_zero⟩

end Cursor

end StreamProgress
