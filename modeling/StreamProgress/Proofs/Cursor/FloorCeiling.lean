import StreamProgress.Proofs.Cursor.Lattice
import StreamProgress.Proofs.Cursor.Raising

/-!
# The floor and the ceiling together

`Cursor.floor` and `Cursor.ceiling` go up the tree of a cursor side by side, one with meets and one
with joins. Both stop at the first fault and both are absent where a part is, so what decides the form
of the result does not depend on which of the two is asked.

## Kinds are what can go wrong

A meet and a join refuse two positions for the same reason, their kinds, and report it by the kinds
alone. The floor of a part is not its ceiling, but it is covered by its ceiling and so is of the same
kind. That is why one relation between the two results, `Cursor.Paired`, is kept at every merged
cursor, faults included.

## Main results

* `Cursor.paired_floor_ceiling` — the two results at any cursor
* `Cursor.floor_ceiling` — the same form, and what two positions say of the leaves
-/

namespace StreamProgress

namespace Cursor

variable {c x : Cursor} {lo hi : Position}
  {floorLower floorUpper ceilingLower ceilingUpper : Except CursorFault (Option Position)}

/-! ### The same form -/

/-- What a floor and a ceiling of one cursor are: the same fault, absent, or two positions of which
the ceiling covers the floor. -/
inductive Paired : Except CursorFault (Option Position) → Except CursorFault (Option Position) → Prop
  | fault (e : CursorFault) : Paired (.error e) (.error e)
  | absent : Paired (.ok none) (.ok none)
  | present {lo hi : Position} (h : lo ≤ hi) : Paired (.ok (some lo)) (.ok (some hi))

/-- Two pairs of positions combine to a pair, or clash in the same way. -/
theorem paired_combine {l l' u u' : Position} (hl : l ≤ l') (hu : u ≤ u') :
    Paired (combine Position.meet (some l) (some u)) (combine Position.join (some l') (some u')) := by
  have hlkind := Position.kind_eq_of_le hl
  have hukind := Position.kind_eq_of_le hu
  simp only [combine]
  by_cases hkind : l.kind = u.kind
  · obtain ⟨m, hm⟩ := Position.exists_meet hkind
    obtain ⟨j, hj⟩ := Position.exists_join ((hlkind.symm.trans hkind).trans hukind)
    rw [hm, hj]
    exact .present ((Position.meet_le_left hm).trans (hl.trans (Position.le_join_left hj)))
  · have hkind' : l'.kind ≠ u'.kind := by rwa [← hlkind, ← hukind]
    rw [Position.meet_of_kind_ne hkind, Position.join_of_kind_ne hkind', ← hlkind, ← hukind]
    exact .fault _

/-- Two halves with paired bounds make a pair. -/
theorem Paired.merged (hl : Paired floorLower ceilingLower) (hu : Paired floorUpper ceilingUpper) :
    Paired (floorLower >>= fun l => floorUpper >>= fun u => combine Position.meet l u)
      (ceilingLower >>= fun l => ceilingUpper >>= fun u => combine Position.join l u) := by
  cases hl with
  | fault e => exact .fault e
  | absent =>
    cases hu with
    | fault e => exact .fault e
    | absent => exact .absent
    | present _ => exact .absent
  | present hl =>
    cases hu with
    | fault e => exact .fault e
    | absent => exact .absent
    | present hu => exact paired_combine hl hu

theorem paired_boundOf {half : Option Cursor} (ih : ∀ c ∈ half, Paired c.floor c.ceiling) :
    Paired (boundOf floor half) (boundOf ceiling half) := by
  cases half with
  | none => exact .absent
  | some c => exact ih c rfl

/-- **The floor and the ceiling of a cursor have the same form.** -/
theorem paired_floor_ceiling (c : Cursor) : Paired c.floor c.ceiling := by
  induction c with
  | plain p => exact .present le_rfl
  | replay reset current replaying _ ih =>
    rw [isBound_floor.replay, isBound_ceiling.replay]
    exact paired_boundOf ih
  | merged lower upper lowerAdvanced upperAdvanced ihLower ihUpper =>
    rw [isBound_floor.merged, isBound_ceiling.merged]
    exact (paired_boundOf ihLower).merged (paired_boundOf ihUpper)

/-! ### Between the two -/

/-- The positions `lo` and `hi` are the closest around the leaves of a cursor. -/
structure Encloses (c : Cursor) (lo hi : Position) : Prop where
  kind_eq : lo.kind = hi.kind
  covers : (plain hi).covers (plain lo) = .ok true
  /-- Every leaf is present and lies between the two. -/
  leaf : ∀ leaf ∈ c.leaves, ∃ p ∈ leaf,
    (plain p).covers (plain lo) = .ok true ∧ (plain hi).covers (plain p) = .ok true
  /-- What every leaf covers the lower one covers. -/
  greatest : ∀ x : Cursor, (∀ leaf ∈ c.leaves, ∃ p ∈ leaf, (plain p).covers x = .ok true) →
    (plain lo).covers x = .ok true
  /-- What covers every leaf covers the upper one. -/
  least : ∀ x : Cursor, (∀ leaf ∈ c.leaves, ∃ p ∈ leaf, x.covers (plain p) = .ok true) →
    x.covers (plain hi) = .ok true

/-- The floor is the greatest among all cursors, since a plain leaf covers only plain cursors. -/
theorem covers_floor_of_leaves (h : c.floor = .ok (some lo))
    (hleaves : ∀ leaf ∈ c.leaves, ∃ p ∈ leaf, (plain p).covers x = .ok true) :
    (plain lo).covers x = .ok true := by
  obtain ⟨leaf, hleaf⟩ := exists_mem_leaves c
  obtain ⟨p, -, hp⟩ := hleaves leaf hleaf
  obtain ⟨s, rfl, -⟩ := covers_plain_eq_ok_true_iff.1 hp
  exact (le_floor_iff h).2 hleaves

/-- The ceiling is the least among all cursors, since a cursor covers what its floor covers. -/
theorem covers_ceiling_of_leaves (h : c.ceiling = .ok (some hi))
    (hleaves : ∀ leaf ∈ c.leaves, ∃ p ∈ leaf, x.covers (plain p) = .ok true) :
    x.covers (plain hi) = .ok true := by
  obtain ⟨leaf, hleaf⟩ := exists_mem_leaves c
  obtain ⟨p, -, hp⟩ := hleaves leaf hleaf
  obtain ⟨b, hb, -⟩ := covers_eq_ok_true_iff.1 hp
  rw [covers_of_floor hb]
  refine (ceiling_le_iff h).2 fun leaf hleaf => ?_
  obtain ⟨q, hq, hcovers⟩ := hleaves leaf hleaf
  rw [covers_of_floor hb] at hcovers
  exact ⟨q, hq, hcovers⟩

theorem encloses_of_floor_ceiling (hlo : c.floor = .ok (some lo)) (hhi : c.ceiling = .ok (some hi))
    (hle : lo ≤ hi) : Encloses c lo hi where
  kind_eq := Position.kind_eq_of_le hle
  covers := hle
  leaf := by
    intro leaf hleaf
    obtain ⟨p, hp, hlop⟩ := (le_floor_iff hlo).1 le_rfl leaf hleaf
    obtain ⟨q, hq, hqhi⟩ := (ceiling_le_iff hhi).1 le_rfl leaf hleaf
    obtain rfl := Option.mem_unique hp hq
    exact ⟨p, hp, hlop, hqhi⟩
  greatest _ := covers_floor_of_leaves hlo
  least _ := covers_ceiling_of_leaves hhi

/-- **The floor and the ceiling are both the same fault, both absent, or both positions of one kind
that enclose the leaves of the cursor as closely as positions can.** -/
theorem floor_ceiling (c : Cursor) :
    (∃ e, floorOf (some c) = .error e ∧ ceilingOf (some c) = .error e) ∨
      (floorOf (some c) = .ok none ∧ ceilingOf (some c) = .ok none) ∨
        ∃ lo hi, floorOf (some c) = .ok (some lo) ∧ ceilingOf (some c) = .ok (some hi) ∧
          Encloses c lo hi := by
  have hpaired : Paired (floorOf (some c)) (ceilingOf (some c)) := paired_floor_ceiling c
  generalize hfloor : floorOf (some c) = lower at hpaired
  generalize hceiling : ceilingOf (some c) = upper at hpaired
  cases hpaired with
  | fault e => exact .inl ⟨e, rfl, rfl⟩
  | absent => exact .inr (.inl ⟨rfl, rfl⟩)
  | present hle =>
    exact .inr (.inr ⟨_, _, rfl, rfl, encloses_of_floor_ceiling hfloor hceiling hle⟩)

end Cursor

end StreamProgress
