import StreamProgress.Cursor.Bounds
import StreamProgress.Proofs.Cursor.Shape
import StreamProgress.Proofs.Except
import StreamProgress.Proofs.Position.Lattice

/-!
# Coverage of positions

What a cursor covers is decided by its floor. `Cursor.covers` asks the halves of a merged cursor
one after the other and stops at the first that does not cover; `Cursor.floor` meets the positions
of all parts. The two walk the tree in different ways and can fail in different ways, and yet a
cursor covers a position exactly when it has a floor and the floor covers the position.

## Which faults agree

If a cursor has a floor, coverage of a position is coverage by the floor, faults included
(`Cursor.covers_of_floor`). Without a floor the two may differ: a lower half that does not cover a
position hides the fault of an upper half of another kind, which the floor reports. What remains
true is that such a cursor covers nothing.

## Main results

* `Cursor.covers_of_floor` — a cursor with a floor covers what the floor covers
* `Cursor.covers_eq_ok_true_iff` — a cursor covers a position iff its floor exists and covers it
* `Cursor.exists_ceiling_of_floor` — a cursor with a floor has a ceiling, which covers the floor
-/

namespace StreamProgress

namespace Cursor

variable {c lower upper : Option Cursor} {lowerAdvanced upperAdvanced : Bool} {p q x : Position}
  {op : Position → Position → Except CursorFault Position}
  {bound : Cursor → Except CursorFault (Option Position)}

/-! ### The parts of a cursor -/

@[simp] theorem covers_plain (p x : Position) : (plain p).covers (plain x) = p.covers x := rfl

@[simp] theorem covers_replay (reset : Cursor) (current : Option Cursor) (replaying : Bool)
    (x : Position) :
    (replay reset current replaying).covers (plain x) = halfCovers current (plain x) := by
  cases current <;> rfl

theorem covers_merged (lower upper : Option Cursor) (lowerAdvanced upperAdvanced : Bool)
    (other : Cursor) : (merged lower upper lowerAdvanced upperAdvanced).covers other =
      (halfCovers lower other >>= fun b => if b then halfCovers upper other else .ok false) := rfl

theorem covers_merged_eq_ok_true_iff {other : Cursor} :
    (merged lower upper lowerAdvanced upperAdvanced).covers other = .ok true ↔
      halfCovers lower other = .ok true ∧ halfCovers upper other = .ok true := by
  rw [covers_merged, Except.bind_eq_ok_iff]
  constructor
  · rintro ⟨b, hb, h⟩
    cases b with
    | false => cases h
    | true => exact ⟨hb, h⟩
  · rintro ⟨hl, hu⟩
    exact ⟨true, hl, hu⟩

theorem halfCovers_eq_ok_true_iff {other : Cursor} :
    halfCovers c other = .ok true ↔ ∃ d ∈ c, covers d other = .ok true := by
  cases c with
  | none => simp [halfCovers]
  | some d => simp [halfCovers]

@[simp] theorem floorOf_some (c : Cursor) : floorOf (some c) = c.floor := rfl

theorem floorOf_eq_ok_some_iff : floorOf c = .ok (some p) ↔ ∃ d ∈ c, floor d = .ok (some p) := by
  cases c with
  | none => simp [floorOf]
  | some d => simp [floorOf]

/-! ### Bounds along the tree

The floor and the ceiling go up the tree of a cursor in the same way and differ only in how they
combine two halves, so what holds of both is stated for any bound that does so. -/

/-- The bound of an optional cursor. -/
def boundOf (bound : Cursor → Except CursorFault (Option Position)) :
    Option Cursor → Except CursorFault (Option Position)
  | none => .ok none
  | some c => bound c

@[simp] theorem boundOf_none : boundOf bound none = .ok none := rfl

@[simp] theorem boundOf_some (c : Cursor) : boundOf bound (some c) = bound c := rfl

/-- A bound that combines the halves of a merged cursor by `op`. -/
structure IsBound (op : Position → Position → Except CursorFault Position)
    (bound : Cursor → Except CursorFault (Option Position)) : Prop where
  plain (p : Position) : bound (.plain p) = .ok (some p)
  /-- Of a replay only the progress counts. -/
  replay (reset : Cursor) (current : Option Cursor) (replaying : Bool) :
    bound (.replay reset current replaying) = boundOf bound current
  merged (lower upper : Option Cursor) (lowerAdvanced upperAdvanced : Bool) :
    bound (.merged lower upper lowerAdvanced upperAdvanced) =
      boundOf bound lower >>= fun l => boundOf bound upper >>= fun u => combine op l u

theorem boundOf_floor (half : Option Cursor) : boundOf floor half = floorOf half := by
  cases half <;> rfl

theorem boundOf_ceiling (half : Option Cursor) : boundOf ceiling half = ceilingOf half := by
  cases half <;> rfl

theorem isBound_floor : IsBound Position.meet floor where
  plain p := rfl
  replay reset current replaying := (boundOf_floor current).symm
  merged lower upper lowerAdvanced upperAdvanced := by
    rw [boundOf_floor, boundOf_floor]
    rfl

theorem isBound_ceiling : IsBound Position.join ceiling where
  plain p := rfl
  replay reset current replaying := (boundOf_ceiling current).symm
  merged lower upper lowerAdvanced upperAdvanced := by
    rw [boundOf_ceiling, boundOf_ceiling]
    rfl

theorem IsBound.merged_eq_ok_iff (hb : IsBound op bound) {o : Option Position} :
    bound (.merged lower upper lowerAdvanced upperAdvanced) = .ok o ↔
      ∃ l u, boundOf bound lower = .ok l ∧ boundOf bound upper = .ok u ∧
        combine op l u = .ok o := by
  simp only [hb.merged, Except.bind_eq_ok_iff]
  constructor
  · rintro ⟨l, hl, u, hu, h⟩
    exact ⟨l, u, hl, hu, h⟩
  · rintro ⟨l, u, hl, hu, h⟩
    exact ⟨l, hl, u, hu, h⟩

theorem combine_eq_ok_some_iff {l u : Option Position} {r : Position} :
    combine op l u = .ok (some r) ↔ ∃ p q, l = some p ∧ u = some q ∧ op p q = .ok r := by
  cases l with
  | none => simp [combine]
  | some p =>
    cases u with
    | none => simp [combine]
    | some q => simp [combine, Except.bind_eq_ok_iff]

theorem floor_merged_eq_ok_iff {o : Option Position} :
    (merged lower upper lowerAdvanced upperAdvanced).floor = .ok o ↔
      ∃ l u, floorOf lower = .ok l ∧ floorOf upper = .ok u ∧ combine Position.meet l u = .ok o := by
  rw [isBound_floor.merged_eq_ok_iff, boundOf_floor, boundOf_floor]

theorem floor_merged_eq_ok_some_iff {r : Position} :
    (merged lower upper lowerAdvanced upperAdvanced).floor = .ok (some r) ↔
      ∃ p q, floorOf lower = .ok (some p) ∧ floorOf upper = .ok (some q) ∧ p.meet q = .ok r := by
  simp only [floor_merged_eq_ok_iff, combine_eq_ok_some_iff]
  constructor
  · rintro ⟨_, _, hl, hu, p, q, rfl, rfl, hm⟩
    exact ⟨p, q, hl, hu, hm⟩
  · rintro ⟨p, q, hl, hu, hm⟩
    exact ⟨some p, some q, hl, hu, p, q, rfl, rfl, hm⟩

/-! ### Coverage and the floor -/

/-- Coverage by two positions, asked one after the other, is coverage by their meet. The kinds
agree, so a position of another kind is refused by the first one just as it is by the meet. -/
theorem covers_meet {r : Position} (h : p.meet q = .ok r) :
    (p.covers x >>= fun b => if b then q.covers x else .ok false) = r.covers x := by
  have hpq := Position.kind_eq_of_meet h
  have hr : r.kind = p.kind := Position.kind_eq_of_le (Position.meet_le_left h)
  by_cases hx : p.kind = x.kind
  · rw [Position.covers_of_kind_eq hx, Position.covers_of_kind_eq (hpq.symm.trans hx),
      Position.covers_of_kind_eq (hr.trans hx), Except.ok_bind]
    by_cases hle : x ≤ p
    · simp [Position.le_meet_iff h, hle]
    · simp [Position.le_meet_iff h, hle]
  · have hrx : r.kind ≠ x.kind := fun h => hx (hr.symm.trans h)
    rw [Position.covers_of_kind_ne hx, Position.covers_of_kind_ne hrx, hr, Except.error_bind]

/-- A cursor with a floor covers what its floor covers, and fails where its floor fails. -/
theorem covers_of_floor {c : Cursor} (h : c.floor = .ok (some p)) :
    c.covers (plain x) = p.covers x := by
  induction c generalizing p with
  | plain q =>
    obtain rfl : q = p := Option.some.inj (Except.ok.inj h)
    rfl
  | replay reset current replaying _ ih =>
    obtain ⟨d, rfl, hd⟩ := floorOf_eq_ok_some_iff.1 h
    exact ih d rfl hd
  | merged lower upper lowerAdvanced upperAdvanced ihLower ihUpper =>
    obtain ⟨l, u, hl, hu, hm⟩ := floor_merged_eq_ok_some_iff.1 h
    obtain ⟨d, rfl, hd⟩ := floorOf_eq_ok_some_iff.1 hl
    obtain ⟨e, rfl, he⟩ := floorOf_eq_ok_some_iff.1 hu
    rw [covers_merged, ← covers_meet hm]
    simp only [halfCovers, ihLower d rfl hd, ihUpper e rfl he]

/-- A cursor that covers a position has a floor. -/
theorem exists_floor_of_covers {c : Cursor} (h : c.covers (plain x) = .ok true) :
    ∃ p, c.floor = .ok (some p) ∧ x ≤ p := by
  induction c with
  | plain q => exact ⟨q, rfl, h⟩
  | replay reset current replaying _ ih =>
    rw [covers_replay] at h
    obtain ⟨d, rfl, hd⟩ := halfCovers_eq_ok_true_iff.1 h
    exact ih d rfl hd
  | merged lower upper lowerAdvanced upperAdvanced ihLower ihUpper =>
    obtain ⟨hl, hu⟩ := covers_merged_eq_ok_true_iff.1 h
    obtain ⟨d, rfl, hd⟩ := halfCovers_eq_ok_true_iff.1 hl
    obtain ⟨e, rfl, he⟩ := halfCovers_eq_ok_true_iff.1 hu
    obtain ⟨l, hl, hxl⟩ := ihLower d rfl hd
    obtain ⟨u, hu, hxu⟩ := ihUpper e rfl he
    -- both floors cover the position, so they are of one kind and do meet
    obtain ⟨r, hm⟩ := Position.exists_meet
      ((Position.kind_eq_of_le hxl).symm.trans (Position.kind_eq_of_le hxu))
    exact ⟨r, floor_merged_eq_ok_some_iff.2 ⟨l, u, hl, hu, hm⟩,
      (Position.le_meet_iff hm).2 ⟨hxl, hxu⟩⟩

/-- A cursor covers a position iff it has a floor that covers it. -/
theorem covers_eq_ok_true_iff {c : Cursor} :
    c.covers (plain x) = .ok true ↔ ∃ p, c.floor = .ok (some p) ∧ x ≤ p := by
  refine ⟨exists_floor_of_covers, ?_⟩
  rintro ⟨p, hp, hx⟩
  rw [covers_of_floor hp]
  exact hx

/-- A cursor covers whatever a position covers that it covers. -/
theorem covers_of_le {c : Cursor} (h : c.covers (plain x) = .ok true) (hp : p ≤ x) :
    c.covers (plain p) = .ok true := by
  obtain ⟨q, hq, hx⟩ := covers_eq_ok_true_iff.1 h
  exact covers_eq_ok_true_iff.2 ⟨q, hq, hp.trans hx⟩

/-! ### The floor and the ceiling -/

/-- A cursor with a floor has a ceiling, and the ceiling covers the floor. -/
theorem exists_ceiling_of_floor {c : Cursor} (h : c.floor = .ok (some p)) :
    ∃ q, c.ceiling = .ok (some q) ∧ p ≤ q := by
  induction c generalizing p with
  | plain q => exact ⟨p, h, le_rfl⟩
  | replay reset current replaying _ ih =>
    obtain ⟨d, rfl, hd⟩ := floorOf_eq_ok_some_iff.1 h
    exact ih d rfl hd
  | merged lower upper lowerAdvanced upperAdvanced ihLower ihUpper =>
    obtain ⟨l, u, hl, hu, hm⟩ := floor_merged_eq_ok_some_iff.1 h
    obtain ⟨d, rfl, hd⟩ := floorOf_eq_ok_some_iff.1 hl
    obtain ⟨e, rfl, he⟩ := floorOf_eq_ok_some_iff.1 hu
    obtain ⟨l', hl', hle⟩ := ihLower d rfl hd
    obtain ⟨u', hu', hue⟩ := ihUpper e rfl he
    -- the floors of the halves meet, so they and the ceilings above them are of one kind
    have hkind : l'.kind = u'.kind :=
      ((Position.kind_eq_of_le hle).symm.trans (Position.kind_eq_of_meet hm)).trans
        (Position.kind_eq_of_le hue)
    obtain ⟨r, hr⟩ := Position.exists_join hkind
    refine ⟨r, ?_, (Position.meet_le_left hm).trans (hle.trans (Position.le_join_left hr))⟩
    simp only [ceiling, ceilingOf, hl', hu', Except.ok_bind, combine, hr]
    rfl

end Cursor

end StreamProgress
