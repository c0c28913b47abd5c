import Mathlib.Order.BoundedOrder.Lattice
import Mathlib.Order.Lattice.Nat
import Mathlib.Order.WithBot
import StreamProgress.Cursor.Position

/-!
# Positions as a partial order

Coverage orders positions: `q ≤ p` says that `p` covers `q`. Positions of different kinds are not
comparable, and within one kind `meet` and `join` are the two bounds of a distributive lattice.

## Offsets

Offsets are ordered partition by partition, so they embed into the functions from partitions to
`WithBot ℕ`, where the bottom stands for a partition that was not started. The embedding carries
`covers`, `meet` and `join` to `≤`, `⊓` and `⊔`, and the lattice laws are pulled back along it.

## Two kinds

`Position.meet` and `Position.join` have no result for positions of different kinds. The order on
`Position` is therefore no lattice, and every law about a bound is stated for the results that
exist, such as `Position.le_meet_iff`, `Position.join_le_iff` and `Position.meet_join_join`.

## Main results

* `Position.covers_of_kind_eq`, `covers_of_kind_ne` — coverage is the order, or a fault
* `Position.le_meet_iff`, `join_le_iff` — the bounds
* `Position.meet_join_join` — raising two positions raises their meet
* `Position.meet_meet_meet`, `join_meet_meet` — lowering two positions lowers both of their bounds
-/

namespace StreamProgress

namespace Count

theorem toNat_min (m n : UInt64) : (min m n).toNat = min m.toNat n.toNat := by
  by_cases h : m ≤ n
  · rw [show min m n = m from if_pos h, Nat.min_eq_left (UInt64.le_iff_toNat_le.1 h)]
  · rw [show min m n = n from if_neg h]
    rw [UInt64.le_iff_toNat_le] at h
    omega

theorem toNat_max (m n : UInt64) : (max m n).toNat = max m.toNat n.toNat := by
  by_cases h : m ≤ n
  · rw [show max m n = n from if_pos h, Nat.max_eq_right (UInt64.le_iff_toNat_le.1 h)]
  · rw [show max m n = m from if_neg h]
    rw [UInt64.le_iff_toNat_le] at h
    omega

end Count

namespace Offsets

variable {a b c : Offsets}

/-! ### Offsets partition by partition -/

/-- How far every partition has been read, with a bottom for one that was not started. -/
def profile (a : Offsets) (partition : String) : WithBot ℕ :=
  match a.get? partition with
  | none => ⊥
  | some n => WithBot.some n.toNat

theorem profile_of_none {partition : String} (h : a.get? partition = none) :
    a.profile partition = ⊥ := by
  rw [profile, h]

theorem profile_of_some {partition : String} {n : UInt64} (h : a.get? partition = some n) :
    a.profile partition = WithBot.some n.toNat := by
  rw [profile, h]

theorem profile_injective : Function.Injective profile := by
  intro a b h
  refine NameMap.ext_get? ?_
  intro partition
  have hp := congrFun h partition
  cases ha : a.get? partition <;> cases hb : b.get? partition
  · rfl
  · rw [profile_of_none ha, profile_of_some hb] at hp
    exact absurd hp (WithBot.bot_ne_coe)
  · rw [profile_of_some ha, profile_of_none hb] at hp
    exact absurd hp (WithBot.coe_ne_bot)
  · rw [profile_of_some ha, profile_of_some hb, WithBot.coe_inj] at hp
    rw [UInt64.toNat_inj.1 hp]

theorem profile_le_iff : a.profile ≤ b.profile ↔ b.covers a = true := by
  rw [covers_iff]
  constructor
  · intro h partition n hn
    have hp := h partition
    rw [profile_of_some hn] at hp
    cases hb : b.get? partition with
    | none =>
      rw [profile_of_none hb] at hp
      exact absurd hp (WithBot.not_coe_le_bot _)
    | some m =>
      rw [profile_of_some hb, WithBot.coe_le_coe] at hp
      exact ⟨m, rfl, UInt64.le_iff_toNat_le.2 hp⟩
  · intro h partition
    cases ha : a.get? partition with
    | none => rw [profile_of_none ha]; exact bot_le
    | some n =>
      obtain ⟨m, hm, hle⟩ := h partition n ha
      rw [profile_of_some ha, profile_of_some hm, WithBot.coe_le_coe]
      exact UInt64.le_iff_toNat_le.1 hle

theorem profile_meet (a b : Offsets) : (a.meet b).profile = a.profile ⊓ b.profile := by
  funext partition
  have hm := get?_meet a b partition
  rw [Pi.inf_apply]
  cases ha : a.get? partition with
  | none =>
    rw [ha] at hm
    rw [profile_of_none hm, profile_of_none ha, bot_inf_eq]
  | some m =>
    cases hb : b.get? partition with
    | none =>
      rw [ha, hb] at hm
      rw [profile_of_none hm, profile_of_none hb, inf_bot_eq]
    | some n =>
      rw [ha, hb] at hm
      rw [profile_of_some hm, profile_of_some ha, profile_of_some hb, Count.toNat_min,
        ← WithBot.coe_min]

theorem profile_join (a b : Offsets) : (a.join b).profile = a.profile ⊔ b.profile := by
  funext partition
  have hj := get?_join a b partition
  rw [Pi.sup_apply]
  cases ha : a.get? partition with
  | none =>
    rw [ha, Option.merge_none_left] at hj
    rw [profile, hj, ← profile, profile_of_none ha, bot_sup_eq]
  | some m =>
    cases hb : b.get? partition with
    | none =>
      rw [ha, hb] at hj
      rw [profile_of_some hj, profile_of_some ha, profile_of_none hb, sup_bot_eq]
    | some n =>
      rw [ha, hb] at hj
      rw [profile_of_some hj, profile_of_some ha, profile_of_some hb, Count.toNat_max,
        ← WithBot.coe_max]

instance : LE Offsets := ⟨fun a b => b.covers a = true⟩

instance : LT Offsets := ⟨fun a b => a ≤ b ∧ ¬b ≤ a⟩

instance : Max Offsets := ⟨join⟩

instance : Min Offsets := ⟨meet⟩

/-- Offsets of one stream form a distributive lattice under coverage. -/
instance : DistribLattice Offsets :=
  profile_injective.distribLattice profile profile_le_iff
    (by intro a b; rw [lt_iff_le_not_ge, profile_le_iff, profile_le_iff]; rfl)
    profile_join profile_meet

theorem le_def : a ≤ b ↔ b.covers a = true := Iff.rfl

end Offsets

namespace Position

variable {p q r s x : Position}

/-! ### The order -/

instance : LE Position := ⟨fun q p => p.covers q = .ok true⟩

instance : LT Position := ⟨fun p q => p ≤ q ∧ ¬q ≤ p⟩

theorem le_iff_covers : q ≤ p ↔ p.covers q = .ok true := Iff.rfl

@[simp] theorem sequence_le_sequence {i j : UInt64} : sequence i ≤ sequence j ↔ i ≤ j := by
  simp [le_iff_covers, covers]

@[simp] theorem partitions_le_partitions {a b : Offsets} : partitions a ≤ partitions b ↔ a ≤ b := by
  simp [le_iff_covers, covers, Offsets.le_def]

@[simp] theorem not_sequence_le_partitions {i : UInt64} {a : Offsets} :
    ¬sequence i ≤ partitions a := nofun

@[simp] theorem not_partitions_le_sequence {i : UInt64} {a : Offsets} :
    ¬partitions a ≤ sequence i := nofun

theorem exists_index_of_kind (h : p.kind = .sequence) : ∃ i, p = sequence i := by
  cases p with
  | sequence i => exact ⟨i, rfl⟩
  | partitions a => cases h

theorem kind_eq_of_le (h : p ≤ q) : p.kind = q.kind := by
  cases p <;> cases q <;> first | rfl | cases h

instance : PartialOrder Position where
  le_refl p := by
    cases p with
    | sequence i => exact sequence_le_sequence.2 (UInt64.le_refl i)
    | partitions a => exact partitions_le_partitions.2 le_rfl
  le_trans p q r hpq hqr := by
    cases p with
    | sequence i =>
      cases q with
      | partitions b => cases hpq
      | sequence j =>
        cases r with
        | partitions c => cases hqr
        | sequence k =>
          rw [sequence_le_sequence] at *
          exact UInt64.le_trans hpq hqr
    | partitions a =>
      cases q with
      | sequence j => cases hpq
      | partitions b =>
        cases r with
        | sequence k => cases hqr
        | partitions c =>
          rw [partitions_le_partitions] at *
          exact hpq.trans hqr
  le_antisymm p q hpq hqp := by
    cases p with
    | sequence i =>
      cases q with
      | partitions b => cases hpq
      | sequence j =>
        rw [sequence_le_sequence] at *
        rw [UInt64.le_antisymm hpq hqp]
    | partitions a =>
      cases q with
      | sequence j => cases hpq
      | partitions b =>
        rw [partitions_le_partitions] at *
        rw [hpq.antisymm hqp]

@[simp] theorem sequence_lt_sequence {i j : UInt64} : sequence i < sequence j ↔ i < j := by
  rw [lt_iff_le_not_ge, sequence_le_sequence, sequence_le_sequence, UInt64.not_le,
    and_iff_right_of_imp UInt64.le_of_lt]

/-- Any two indices can be compared. -/
theorem le_or_ge_of_kind (hp : p.kind = .sequence) (hq : q.kind = .sequence) : p ≤ q ∨ q ≤ p := by
  obtain ⟨i, rfl⟩ := exists_index_of_kind hp
  obtain ⟨j, rfl⟩ := exists_index_of_kind hq
  rw [sequence_le_sequence, sequence_le_sequence]
  exact UInt64.le_total i j

instance : DecidableLE Position := fun q p => inferInstanceAs (Decidable (p.covers q = .ok true))

/-! ### Two positions of one kind, and of two kinds -/

/-- Two positions of one kind are two indices or two offsets. -/
theorem exists_of_kind_eq (h : p.kind = q.kind) :
    (∃ i j, p = sequence i ∧ q = sequence j) ∨ ∃ a b, p = partitions a ∧ q = partitions b := by
  cases p with
  | sequence i =>
    cases q with
    | sequence j => exact .inl ⟨i, j, rfl, rfl⟩
    | partitions b => cases h
  | partitions a =>
    cases q with
    | sequence j => cases h
    | partitions b => exact .inr ⟨a, b, rfl, rfl⟩

/-- Coverage between positions of one kind is the order. -/
theorem covers_of_kind_eq (h : p.kind = q.kind) : p.covers q = .ok (decide (q ≤ p)) := by
  obtain ⟨i, j, rfl, rfl⟩ | ⟨a, b, rfl, rfl⟩ := exists_of_kind_eq h
  · simp [covers]
  · simp [covers, Offsets.le_def]

theorem covers_of_kind_ne (h : p.kind ≠ q.kind) :
    p.covers q = .error (.incompatible p.kind q.kind) := by
  cases p <;> cases q <;> first | rfl | exact absurd rfl h

theorem meet_of_kind_ne (h : p.kind ≠ q.kind) :
    p.meet q = .error (.incompatible p.kind q.kind) := by
  cases p <;> cases q <;> first | rfl | exact absurd rfl h

theorem join_of_kind_ne (h : p.kind ≠ q.kind) :
    p.join q = .error (.incompatible p.kind q.kind) := by
  cases p <;> cases q <;> first | rfl | exact absurd rfl h

theorem exists_meet (h : p.kind = q.kind) : ∃ r, p.meet q = .ok r := by
  obtain ⟨i, j, rfl, rfl⟩ | ⟨a, b, rfl, rfl⟩ := exists_of_kind_eq h
  · exact ⟨_, rfl⟩
  · exact ⟨_, rfl⟩

theorem exists_join (h : p.kind = q.kind) : ∃ r, p.join q = .ok r := by
  obtain ⟨i, j, rfl, rfl⟩ | ⟨a, b, rfl, rfl⟩ := exists_of_kind_eq h
  · exact ⟨_, rfl⟩
  · exact ⟨_, rfl⟩

theorem kind_eq_of_meet (h : p.meet q = .ok r) : p.kind = q.kind := by
  by_contra hne
  rw [meet_of_kind_ne hne] at h
  cases h

theorem kind_eq_of_join (h : p.join q = .ok r) : p.kind = q.kind := by
  by_contra hne
  rw [join_of_kind_ne hne] at h
  cases h

/-! ### The bounds -/

/-- The meet is the greatest position that both positions cover. -/
theorem le_meet_iff (h : p.meet q = .ok r) : x ≤ r ↔ x ≤ p ∧ x ≤ q := by
  obtain ⟨i, j, rfl, rfl⟩ | ⟨a, b, rfl, rfl⟩ := exists_of_kind_eq (kind_eq_of_meet h)
  · obtain rfl : sequence (min i j) = r := Except.ok.inj h
    cases x with
    | sequence k =>
      simp only [sequence_le_sequence, UInt64.le_iff_toNat_le, Count.toNat_min]
      omega
    | partitions c => simp
  · obtain rfl : partitions (a ⊓ b) = r := Except.ok.inj h
    cases x with
    | sequence k => simp
    | partitions c => simp

/-- The join is the least position that covers both positions. -/
theorem join_le_iff (h : p.join q = .ok r) : r ≤ x ↔ p ≤ x ∧ q ≤ x := by
  obtain ⟨i, j, rfl, rfl⟩ | ⟨a, b, rfl, rfl⟩ := exists_of_kind_eq (kind_eq_of_join h)
  · obtain rfl : sequence (max i j) = r := Except.ok.inj h
    cases x with
    | sequence k =>
      simp only [sequence_le_sequence, UInt64.le_iff_toNat_le, Count.toNat_max]
      omega
    | partitions c => simp
  · obtain rfl : partitions (a ⊔ b) = r := Except.ok.inj h
    cases x with
    | sequence k => simp
    | partitions c => simp

theorem meet_le_left (h : p.meet q = .ok r) : r ≤ p := ((le_meet_iff h).1 le_rfl).1

theorem meet_le_right (h : p.meet q = .ok r) : r ≤ q := ((le_meet_iff h).1 le_rfl).2

theorem le_join_left (h : p.join q = .ok r) : p ≤ r := ((join_le_iff h).1 le_rfl).1

theorem le_join_right (h : p.join q = .ok r) : q ≤ r := ((join_le_iff h).1 le_rfl).2

theorem meet_comm (h : p.meet q = .ok r) : q.meet p = .ok r := by
  obtain ⟨s, hs⟩ := exists_meet (kind_eq_of_meet h).symm
  have hrs : r = s := by
    refine eq_of_forall_le_iff fun x => ?_
    rw [le_meet_iff h, le_meet_iff hs, and_comm]
  rw [hs, hrs]

theorem join_comm (h : p.join q = .ok r) : q.join p = .ok r := by
  obtain ⟨s, hs⟩ := exists_join (kind_eq_of_join h).symm
  have hrs : r = s := by
    refine eq_of_forall_ge_iff fun x => ?_
    rw [join_le_iff h, join_le_iff hs, and_comm]
  rw [hs, hrs]

/-- A position that covers another one is their join. -/
theorem join_of_le (h : q ≤ p) : p.join q = .ok p := by
  obtain ⟨r, hr⟩ := exists_join (kind_eq_of_le h).symm
  have hrp : r ≤ p := (join_le_iff hr).2 ⟨le_rfl, h⟩
  rw [hr, hrp.antisymm (le_join_left hr)]

/-- A position that is covered by another one adds nothing to it. -/
theorem join_of_ge (h : p ≤ q) : p.join q = .ok q := by
  obtain ⟨r, hr⟩ := exists_join (kind_eq_of_le h)
  have hrq : r ≤ q := (join_le_iff hr).2 ⟨h, le_rfl⟩
  rw [hr, hrq.antisymm (le_join_right hr)]

theorem meet_of_le (h : p ≤ q) : p.meet q = .ok p := by
  obtain ⟨r, hr⟩ := exists_meet (kind_eq_of_le h)
  have hpr : p ≤ r := (le_meet_iff hr).2 ⟨le_rfl, h⟩
  rw [hr, (meet_le_left hr).antisymm hpr]

theorem meet_of_ge (h : q ≤ p) : p.meet q = .ok q := by
  obtain ⟨r, hr⟩ := exists_meet (kind_eq_of_le h).symm
  have hqr : q ≤ r := (le_meet_iff hr).2 ⟨h, le_rfl⟩
  rw [hr, (meet_le_right hr).antisymm hqr]

/-- Raising two positions by a third one raises their meet by it. -/
theorem meet_join_join {l u m l' u' : Position} (hm : l.meet u = .ok m) (hl : l.join x = .ok l')
    (hu : u.join x = .ok u') : ∃ m', m.join x = .ok m' ∧ l'.meet u' = .ok m' := by
  obtain ⟨i, j, rfl, rfl⟩ | ⟨a, b, rfl, rfl⟩ := exists_of_kind_eq (kind_eq_of_meet hm)
  · obtain rfl : sequence (min i j) = m := Except.ok.inj hm
    cases x with
    | partitions c => cases hl
    | sequence k =>
      obtain rfl : sequence (max i k) = l' := Except.ok.inj hl
      obtain rfl : sequence (max j k) = u' := Except.ok.inj hu
      refine ⟨_, rfl, ?_⟩
      have hk : min (max i k) (max j k) = max (min i j) k := by
        rw [← UInt64.toNat_inj]
        simp only [Count.toNat_min, Count.toNat_max]
        omega
      rw [← hk]
      rfl
  · obtain rfl : partitions (a ⊓ b) = m := Except.ok.inj hm
    cases x with
    | sequence k => cases hl
    | partitions c =>
      obtain rfl : partitions (a ⊔ c) = l' := Except.ok.inj hl
      obtain rfl : partitions (b ⊔ c) = u' := Except.ok.inj hu
      refine ⟨_, rfl, ?_⟩
      exact congrArg (fun d => Except.ok (partitions d)) (sup_inf_right a b c).symm

/-- Two positions that are lowered by a third one have a meet, which is lowered with them. -/
theorem meet_meet_meet {p' q' : Position} (hp : p.meet s = .ok p') (hq : q.meet s = .ok q') :
    ∃ m m', p.meet q = .ok m ∧ m.meet s = .ok m' ∧ p'.meet q' = .ok m' := by
  have hps := kind_eq_of_meet hp
  obtain ⟨m, hm⟩ := exists_meet (hps.trans (kind_eq_of_meet hq).symm)
  have hkind : m.kind = s.kind := (kind_eq_of_le (meet_le_left hm)).trans hps
  obtain ⟨m', hm'⟩ := exists_meet hkind
  have hkind' : p'.kind = q'.kind :=
    (kind_eq_of_le (meet_le_right hp)).trans (kind_eq_of_le (meet_le_right hq)).symm
  obtain ⟨n, hn⟩ := exists_meet hkind'
  have hnm : n = m' := by
    refine eq_of_forall_le_iff ?_
    intro x
    rw [le_meet_iff hn, le_meet_iff hp, le_meet_iff hq, le_meet_iff hm', le_meet_iff hm]
    exact and_and_right.symm
  exact ⟨m, m', hm, hm', hnm ▸ hn⟩

/-- Two positions that are lowered by a third one have a join, which is lowered with them. -/
theorem join_meet_meet {p' q' : Position} (hp : p.meet s = .ok p') (hq : q.meet s = .ok q') :
    ∃ m m', p.join q = .ok m ∧ m.meet s = .ok m' ∧ p'.join q' = .ok m' := by
  obtain ⟨i, k, rfl, rfl⟩ | ⟨a, c, rfl, rfl⟩ := exists_of_kind_eq (kind_eq_of_meet hp)
  · obtain rfl : sequence (min i k) = p' := Except.ok.inj hp
    cases q with
    | partitions b => cases hq
    | sequence j =>
      obtain rfl : sequence (min j k) = q' := Except.ok.inj hq
      refine ⟨_, _, rfl, rfl, ?_⟩
      have hk : max (min i k) (min j k) = min (max i j) k := by
        rw [← UInt64.toNat_inj]
        simp only [Count.toNat_min, Count.toNat_max]
        omega
      rw [← hk]
      rfl
  · obtain rfl : partitions (a ⊓ c) = p' := Except.ok.inj hp
    cases q with
    | sequence j => cases hq
    | partitions b =>
      obtain rfl : partitions (b ⊓ c) = q' := Except.ok.inj hq
      refine ⟨_, _, rfl, rfl, ?_⟩
      exact congrArg (fun d => Except.ok (partitions d)) (inf_sup_right a b c).symm

end Position

end StreamProgress
