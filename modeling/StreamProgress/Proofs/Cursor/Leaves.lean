import StreamProgress.Proofs.Cursor.Flags

/-!
# Leaves of a cursor

A cursor guarantees what all of its leaves have reached. `Cursor.floor` computes this on the way up
the tree; `Cursor.leaves` lists the leaves, and the two say the same: the floor is absent only
where a leaf is, and otherwise it is the greatest position that every leaf covers.

## Main results

* `Cursor.none_mem_leaves_of_floor` — without a floor a part has not started
* `Cursor.le_floor_iff` — the floor is the greatest position below all leaves
* `Cursor.leaves_eq_of_beq` — equal cursors have the same leaves
-/

namespace StreamProgress

namespace Cursor

variable {c d : Cursor} {half : Option Cursor} {p x : Position}

@[simp] theorem leavesOf_none : leavesOf none = [none] := rfl

@[simp] theorem leavesOf_some (c : Cursor) : leavesOf (some c) = c.leaves := rfl

@[simp] theorem leaves_plain (p : Position) : (plain p).leaves = [some p] := rfl

theorem mem_leaves_merged {lower upper : Option Cursor} {lowerAdvanced upperAdvanced : Bool}
    {leaf : Option Position} :
    leaf ∈ (merged lower upper lowerAdvanced upperAdvanced).leaves ↔
      leaf ∈ leavesOf lower ∨ leaf ∈ leavesOf upper :=
  List.mem_append

/-- A cursor has a leaf, which may be a part that has not started. -/
theorem exists_mem_leaves (c : Cursor) : ∃ leaf, leaf ∈ c.leaves := by
  induction c with
  | plain p => exact ⟨some p, List.mem_singleton_self _⟩
  | replay reset current replaying _ ih =>
    have hnone : ∃ leaf, leaf ∈ leavesOf none := ⟨none, List.mem_singleton_self none⟩
    have hcurrent : ∃ leaf, leaf ∈ leavesOf current := forall_half current hnone ih
    exact hcurrent
  | merged lower upper lowerAdvanced upperAdvanced ihLower _ =>
    have hnone : ∃ leaf, leaf ∈ leavesOf none := ⟨none, List.mem_singleton_self none⟩
    obtain ⟨leaf, hleaf⟩ : ∃ leaf, leaf ∈ leavesOf lower := forall_half lower hnone ihLower
    exact ⟨leaf, mem_leaves_merged.2 (.inl hleaf)⟩

/-! ### Leaves and the floor -/

theorem none_mem_leavesOf_of_floorOf (ih : ∀ c ∈ half, c.floor = .ok none → none ∈ c.leaves)
    (h : floorOf half = .ok none) : none ∈ leavesOf half := by
  cases half with
  | none => exact List.mem_singleton_self none
  | some c => exact ih c rfl h

/-- Where there is no floor, a part has not started. -/
theorem none_mem_leaves_of_floor (h : c.floor = .ok none) : none ∈ c.leaves := by
  induction c with
  | plain p => cases h
  | replay reset current replaying _ ih => exact none_mem_leavesOf_of_floorOf ih h
  | merged lower upper lowerAdvanced upperAdvanced ihLower ihUpper =>
    obtain ⟨l, u, hl, hu, h⟩ := floor_merged_eq_ok_iff.1 h
    rw [mem_leaves_merged]
    cases l with
    | none => exact .inl (none_mem_leavesOf_of_floorOf ihLower hl)
    | some p =>
      cases u with
      | none => exact .inr (none_mem_leavesOf_of_floorOf ihUpper hu)
      | some q =>
        rw [combine, Except.bind_eq_ok_iff] at h
        obtain ⟨r, -, h⟩ := h
        cases h

/-- **The floor is the greatest position that all leaves cover.** -/
theorem le_floor_iff (h : c.floor = .ok (some p)) :
    x ≤ p ↔ ∀ leaf ∈ c.leaves, ∃ q ∈ leaf, x ≤ q := by
  induction c generalizing p with
  | plain q =>
    obtain rfl : q = p := Option.some.inj (Except.ok.inj h)
    simp
  | replay reset current replaying _ ih =>
    obtain ⟨d, rfl, hd⟩ := floorOf_eq_ok_some_iff.1 h
    exact ih d rfl hd
  | merged lower upper lowerAdvanced upperAdvanced ihLower ihUpper =>
    obtain ⟨l, u, hl, hu, hm⟩ := floor_merged_eq_ok_some_iff.1 h
    obtain ⟨d, rfl, hd⟩ := floorOf_eq_ok_some_iff.1 hl
    obtain ⟨e, rfl, he⟩ := floorOf_eq_ok_some_iff.1 hu
    rw [Position.le_meet_iff hm, ihLower d rfl hd, ihUpper e rfl he]
    simp only [mem_leaves_merged, leavesOf_some, or_imp, forall_and]

/-! ### Leaves of equal cursors -/

theorem leavesOf_bareHalf (ih : ∀ c ∈ half, c.bare.leaves = c.leaves) :
    leavesOf (bareHalf half) = leavesOf half := by
  cases half with
  | none => rfl
  | some c => exact ih c rfl

@[simp] theorem leaves_bare (c : Cursor) : c.bare.leaves = c.leaves := by
  induction c with
  | plain p => rfl
  | replay reset current replaying _ ih => exact leavesOf_bareHalf ih
  | merged lower upper lowerAdvanced upperAdvanced ihLower ihUpper =>
    simp only [bare, leaves, leavesOf_bareHalf ihLower, leavesOf_bareHalf ihUpper]

theorem leaves_eq_of_beq (h : (c == d) = true) : c.leaves = d.leaves := by
  rw [← leaves_bare c, beq_iff.1 h, leaves_bare]

end Cursor

end StreamProgress
