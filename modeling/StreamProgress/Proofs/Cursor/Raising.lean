import Mathlib.Data.List.ReduceOption
import StreamProgress.Proofs.Cursor.Bounds
import StreamProgress.Proofs.Cursor.MergeTree
import StreamProgress.Proofs.Cursor.Replay

/-!
# Raising a merge tree

An advance moves the parts of a merge tree one by one: some start, some are joined, some stay, and
halves that have become equal collapse at any level. Raising the tree by `Cursor.upperBound` moves
the halves in the same way and collapses them by another rule. What all of this comes to can be told
without the tree: both bounds are joined with the position.

## The floor and the ceiling

An absent part makes both bounds of a tree absent and starts at the position, so afterwards there are
both. The floor was a meet of leaves; raised leaf by leaf it is the raised meet, since the lattice is
distributive (`Cursor.TreeMove.exists_raise`). The ceiling is the join of the leaves that were there
and of the position (`Cursor.TreeMove.ceiling_le_iff`).

## Several positions

Bounds are told apart by what is above them. `Cursor.RaisedBy` says so for any list of positions, and
in that form one raise after the other is a raise by all of them (`Cursor.RaisedBy.trans`), whatever
their order and however often one of them occurs (`Cursor.RaisedBy.bounds_eq`).

## Main results

* `Cursor.exists_upperBound_of_advance` — an advance and a raise have the same bounds
* `Cursor.MergeTree.exists_advance_hasBounds` — the bounds of a merge tree that advanced
* `Cursor.MergeTree.exists_raiseAll` — a merge tree raised by a list of positions
-/

namespace StreamProgress

namespace Position

variable {p q x y : Position} {positions : List Position}

theorem joinAll_le_iff (h : p.joinAll positions = .ok q) :
    q ≤ y ↔ p ≤ y ∧ ∀ x ∈ positions, x ≤ y := by
  induction positions generalizing p with
  | nil =>
    obtain rfl : p = q := Except.ok.inj h
    simp
  | cons x positions ih =>
    rw [joinAll, List.foldlM_cons, Except.bind_eq_ok_iff] at h
    obtain ⟨s, hs, h⟩ := h
    rw [ih h, join_le_iff hs, List.forall_mem_cons, and_assoc]

/-- Positions of one kind have a join. -/
theorem exists_joinAll (h : ∀ x ∈ positions, x.kind = p.kind) : ∃ q, p.joinAll positions = .ok q := by
  induction positions generalizing p with
  | nil => exact ⟨p, rfl⟩
  | cons x positions ih =>
    obtain ⟨hx, hpositions⟩ := List.forall_mem_cons.1 h
    obtain ⟨s, hs⟩ := exists_join hx.symm
    have hkind : s.kind = p.kind := (kind_eq_of_le (le_join_left hs)).symm
    obtain ⟨q, hq⟩ := ih fun z hz => (hpositions z hz).trans hkind.symm
    exact ⟨q, (joinAll_cons hs positions).trans hq⟩

end Position

namespace Cursor

variable {c d r : Cursor} {half lower upper : Option Cursor} {lowerAdvanced upperAdvanced : Bool}
  {k : Kind} {p x y : Position} {xs ys : List Position}

/-- The positions at the leaves of a cursor. -/
def positions (c : Cursor) : List Position := c.leaves.reduceOption

theorem mem_positions : p ∈ c.positions ↔ some p ∈ c.leaves := List.reduceOption_mem_iff

/-! ### The ceiling and the leaves -/

/-- **The ceiling is the least position that covers all leaves,** and where there is one no leaf is
absent. -/
theorem ceiling_le_iff (h : c.ceiling = .ok (some p)) :
    p ≤ y ↔ ∀ leaf ∈ c.leaves, ∃ q ∈ leaf, q ≤ y := by
  induction c generalizing p with
  | plain q =>
    obtain rfl : q = p := Option.some.inj (Except.ok.inj h)
    simp
  | replay reset current replaying _ ih =>
    cases current with
    | none => cases h
    | some d => exact ih d rfl h
  | merged lower upper lowerAdvanced upperAdvanced ihLower ihUpper =>
    obtain ⟨l, u, hl, hu, h⟩ := isBound_ceiling.merged_eq_ok_iff.1 h
    obtain ⟨p, q, rfl, rfl, hj⟩ := combine_eq_ok_some_iff.1 h
    cases lower with
    | none => cases hl
    | some d =>
      cases upper with
      | none => cases hu
      | some e =>
        rw [Position.join_le_iff hj, ihLower d rfl hl, ihUpper e rfl hu]
        simp only [mem_leaves_merged, leavesOf_some, or_imp, forall_and]

namespace TreeMove

/-- No leaf falls. -/
theorem exists_mem_leaves_ge (h : TreeMove x half r) (hp : some p ∈ leavesOf half) :
    ∃ q, some q ∈ r.leaves ∧ p ≤ q := by
  induction h with
  | started => simp at hp
  | @joined q s hjoin =>
    obtain rfl : p = q := Option.some.inj (List.mem_singleton.1 hp)
    exact ⟨s, List.mem_singleton_self _, Position.le_join_left hjoin⟩
  | kept => exact ⟨p, hp, le_rfl⟩
  | converged _ _ _ _ heq ihLower ihUpper =>
    rw [leavesOf_some, mem_leaves_merged] at hp
    obtain hp | hp := hp
    · exact ihLower hp
    · rw [leaves_eq_of_beq heq]
      exact ihUpper hp
  | pending _ _ _ ihLower ihUpper =>
    rw [leavesOf_some, mem_leaves_merged] at hp
    obtain hp | hp := hp
    · obtain ⟨q, hq, hle⟩ := ihLower hp
      exact ⟨q, mem_leaves_merged.2 (.inl hq), hle⟩
    · obtain ⟨q, hq, hle⟩ := ihUpper hp
      exact ⟨q, mem_leaves_merged.2 (.inr hq), hle⟩

/-- **The ceiling is the join of the position and of the leaves that were there.** -/
theorem ceiling_le_iff {lo : Option Position} {hi : Position} (h : TreeMove x half r)
    (hlo : floorOf half = .ok lo) (hhi : r.ceiling = .ok (some hi)) :
    hi ≤ y ↔ (∀ p, some p ∈ leavesOf half → p ≤ y) ∧ x ≤ y := by
  have hleaves := (Cursor.ceiling_le_iff hhi).1 le_rfl
  constructor
  · intro hy
    refine ⟨fun p hp => ?_, ?_⟩
    · obtain ⟨q, hq, hpq⟩ := h.exists_mem_leaves_ge hp
      obtain ⟨_, ⟨⟩, hqhi⟩ := hleaves _ hq
      exact hpq.trans (hqhi.trans hy)
    · -- the position is below the raised floor, which is below the ceiling
      obtain ⟨lo', hraise, hfloor⟩ := h.exists_raise hlo
      obtain ⟨top, htop, hle⟩ := exists_ceiling_of_floor hfloor
      obtain rfl : top = hi := Option.some.inj (Except.ok.inj (htop.symm.trans hhi))
      exact (Position.le_of_raise hraise).trans (hle.trans hy)
  · rintro ⟨hle, hx⟩
    rw [Cursor.ceiling_le_iff hhi]
    intro leaf hleaf
    obtain ⟨q, rfl, -⟩ := hleaves leaf hleaf
    exact ⟨q, rfl, h.leaves_le hle hx q hleaf⟩

end TreeMove

/-! ### Advancing and raising -/

/-- A cursor whose parts have all reached something, `lo` together and `hi` at most. -/
structure HasBounds (c : Cursor) (lo hi : Position) : Prop where
  floor : c.floor = .ok (some lo)
  ceiling : c.ceiling = .ok (some hi)

/-- A merged cursor that advances can be raised, and the two results have the same bounds: both put
the same halves together. -/
theorem exists_upperBound_of_advance {x : Cursor}
    (h : (merged lower upper lowerAdvanced upperAdvanced).advance x = .ok r) :
    ∃ r', (merged lower upper lowerAdvanced upperAdvanced).upperBound x = .ok r' ∧
      ∀ {lo hi}, r.HasBounds lo hi → r'.HasBounds lo hi := by
  cases advance_merged_eq_ok_iff.1 h with
  | @converged _ u hl hu _ _ heq =>
    refine ⟨mergeSome r u, upperBound_merged_eq_ok_iff.2 ⟨r, u, hl, hu, rfl⟩, ?_⟩
    rw [mergeSome, if_pos heq]
    exact id
  | @pending l u hl hu _ =>
    have hfloor := isBound_floor.of_mergeSome (fun _ => Position.meet_of_le le_rfl) l u
    have hceiling := isBound_ceiling.of_mergeSome (fun _ => Position.join_of_le le_rfl) l u
    refine ⟨mergeSome l u, upperBound_merged_eq_ok_iff.2 ⟨l, u, hl, hu, rfl⟩, ?_⟩
    intro lo hi hbounds
    exact ⟨hfloor.trans hbounds.floor, hceiling.trans hbounds.ceiling⟩

/-! ### Raised by several positions -/

/-- The bounds of `r` are those of `c` raised by positions: the floor is the least position above the
old floor, if there was one, and above the positions, and the ceiling is the least one above the
leaves of `c` and above the positions. -/
structure RaisedBy (xs : List Position) (c r : Cursor) : Prop where
  floor : ∃ lo, r.floor = .ok (some lo) ∧
    ∀ y, lo ≤ y ↔ (∀ p, c.floor = .ok (some p) → p ≤ y) ∧ ∀ x ∈ xs, x ≤ y
  ceiling : ∃ hi, r.ceiling = .ok (some hi) ∧
    ∀ y, hi ≤ y ↔ (∀ p, some p ∈ c.leaves → p ≤ y) ∧ ∀ x ∈ xs, x ≤ y

namespace RaisedBy

/-- One raise after the other is a raise by the positions of both. -/
theorem trans (h : RaisedBy xs c d) (h' : RaisedBy ys d r) :
    RaisedBy (xs ++ ys) c r := by
  obtain ⟨lo, hlo, hfloor⟩ := h.floor
  obtain ⟨hi, hhi, hceiling⟩ := h.ceiling
  obtain ⟨lo', hlo', hfloor'⟩ := h'.floor
  obtain ⟨hi', hhi', hceiling'⟩ := h'.ceiling
  refine ⟨⟨lo', hlo', fun y => ?_⟩, ⟨hi', hhi', fun y => ?_⟩⟩
  · have hd : (∀ p, d.floor = .ok (some p) → p ≤ y) ↔ lo ≤ y := by simp [hlo]
    rw [hfloor', hd, hfloor, and_assoc, List.forall_mem_append]
  · have hd : (∀ p, some p ∈ d.leaves → p ≤ y) ↔ hi ≤ y := by
      rw [Cursor.ceiling_le_iff hhi]
      have hleaves := (Cursor.ceiling_le_iff hhi).1 le_rfl
      constructor
      · intro hle leaf hleaf
        obtain ⟨q, rfl, -⟩ := hleaves leaf hleaf
        exact ⟨q, rfl, hle q hleaf⟩
      · intro hle p hp
        obtain ⟨_, ⟨⟩, hpy⟩ := hle _ hp
        exact hpy
    rw [hceiling', hd, hceiling, and_assoc, List.forall_mem_append]

/-- **Order and repetition do not matter.** -/
theorem bounds_eq {s : Cursor} (h : RaisedBy xs c r) (h' : RaisedBy ys c s)
    (hmem : ∀ x, x ∈ xs ↔ x ∈ ys) :
    ∃ lo hi, r.HasBounds lo hi ∧ s.HasBounds lo hi := by
  obtain ⟨lo, hlo, hfloor⟩ := h.floor
  obtain ⟨hi, hhi, hceiling⟩ := h.ceiling
  obtain ⟨lo', hlo', hfloor'⟩ := h'.floor
  obtain ⟨hi', hhi', hceiling'⟩ := h'.ceiling
  have hlolo' : lo = lo' := eq_of_forall_ge_iff fun y => by simp only [hfloor, hfloor', hmem]
  have hhihi' : hi = hi' := eq_of_forall_ge_iff fun y => by simp only [hceiling, hceiling', hmem]
  exact ⟨lo, hi, ⟨hlo, hhi⟩, ⟨hlolo' ▸ hlo', hhihi' ▸ hhi'⟩⟩

end RaisedBy

/-! ### Raising a merge tree -/

theorem MergeTree.mergeSome {l u : Cursor} (hl : MergeTree k l) (hu : MergeTree k u) :
    MergeTree k (mergeSome l u) := by
  rw [Cursor.mergeSome]
  split
  · exact hl
  · refine .node ?_ ?_
    · rintro _ ⟨⟩
      exact hl
    · rintro _ ⟨⟩
      exact hu

/-- The half of a merge tree moves within the tree. -/
theorem MergeTree.treeMove_of_halfMove (htree : ∀ c ∈ half, MergeTree k c)
    (h : HalfMove (plain x) half r) : TreeMove x half r :=
  .of_halfMove h fun c hc _ hwraps hadvance => (htree c hc).treeMove hwraps hadvance

/-- A merge tree that is raised stays one. -/
theorem MergeTree.of_upperBound (h : MergeTree k c) (hx : x.kind = k)
    (hr : c.upperBound (plain x) = .ok r) : MergeTree k r := by
  cases h with
  | leaf hkind =>
    obtain ⟨s, hs, rfl⟩ := upperBound_plain_eq_ok_iff.1 hr
    exact .leaf ((Position.kind_eq_of_le (Position.le_join_right hs)).symm.trans hx)
  | node hlower hupper =>
    obtain ⟨l, u, hl, hu, rfl⟩ := upperBound_merged_eq_ok_iff.1 hr
    exact .mergeSome ((treeMove_of_halfMove hlower hl).mergeTree hlower hx)
      ((treeMove_of_halfMove hupper hu).mergeTree hupper hx)

/-- **A merged tree advances to its own bounds joined with the position.** -/
theorem MergeTree.exists_advance_hasBounds (h : MergeTree k c) (hwraps : c.kind.wraps = true)
    (hx : x.kind = k) :
    ∃ r lo lo' hi, c.advance (plain x) = .ok r ∧ c.floor = .ok lo ∧ Position.raise lo x = .ok lo' ∧
      x.joinAll c.positions = .ok hi ∧ r.HasBounds lo' hi := by
  obtain ⟨r, hr⟩ := h.exists_advance hx
  obtain ⟨lo, hlo, -⟩ := h.exists_floor
  have hmove := h.treeMove hwraps hr
  obtain ⟨lo', hraise, hfloor⟩ := hmove.exists_raise hlo
  obtain ⟨top, htop, -⟩ := exists_ceiling_of_floor hfloor
  obtain ⟨hi, hhi⟩ : ∃ hi, x.joinAll c.positions = .ok hi := Position.exists_joinAll
    fun p hp => (h.kind_of_mem_leaves (mem_positions.1 hp)).trans hx.symm
  have htophi : top = hi := by
    refine eq_of_forall_ge_iff fun y => ?_
    rw [hmove.ceiling_le_iff hlo htop, Position.joinAll_le_iff hhi, leavesOf_some, and_comm]
    simp only [mem_positions]
  exact ⟨r, lo, lo', hi, hr, hlo, hraise, hhi, hfloor, htophi ▸ htop⟩

/-- Bounds that were joined with a position are raised by it. -/
theorem RaisedBy.of_hasBounds {lo : Option Position} {lo' hi : Position} (hlo : c.floor = .ok lo)
    (hraise : Position.raise lo x = .ok lo') (hhi : x.joinAll c.positions = .ok hi)
    (h : r.HasBounds lo' hi) : RaisedBy [x] c r := by
  refine ⟨⟨lo', h.floor, fun y => ?_⟩, ⟨hi, h.ceiling, fun y => ?_⟩⟩
  · rw [hlo]
    cases lo with
    | none =>
      obtain rfl : x = lo' := Except.ok.inj hraise
      simp
    | some p =>
      rw [Position.join_le_iff hraise]
      simp
  · rw [Position.joinAll_le_iff hhi, List.forall_mem_singleton, and_comm]
    simp only [mem_positions]

/-- **A merge tree is raised by every position of its kind.** -/
theorem MergeTree.exists_upperBound (h : MergeTree k c) (hx : x.kind = k) :
    ∃ r, c.upperBound (plain x) = .ok r ∧ MergeTree k r ∧ RaisedBy [x] c r := by
  have htree := h
  cases h with
  | @leaf p hkind =>
    obtain ⟨s, hs⟩ := Position.exists_join (hkind.trans hx.symm)
    have hr : (plain p).upperBound (plain x) = .ok (plain s) :=
      upperBound_plain_eq_ok_iff.2 ⟨s, hs, rfl⟩
    refine ⟨plain s, hr, htree.of_upperBound hx hr, ?_, ?_⟩
    · refine ⟨s, rfl, fun y => ?_⟩
      rw [Position.join_le_iff hs]
      simp [Cursor.floor]
    · refine ⟨s, rfl, fun y => ?_⟩
      rw [Position.join_le_iff hs]
      simp
  | node =>
    obtain ⟨a, lo, lo', hi, ha, hlo, hraise, hhi, hbounds⟩ := htree.exists_advance_hasBounds rfl hx
    obtain ⟨r, hr, hsame⟩ := exists_upperBound_of_advance ha
    exact ⟨r, hr, htree.of_upperBound hx hr, .of_hasBounds hlo hraise hhi (hsame hbounds)⟩

/-- A cursor raised by the positions of a list, one after the other. -/
def raiseAll (c : Cursor) (xs : List Position) : Except CursorFault Cursor :=
  xs.foldlM (fun c x => c.upperBound (plain x)) c

/-- **A merge tree is raised by a list of positions,** none of which fails. -/
theorem MergeTree.exists_raiseAll (h : MergeTree k c) (hne : xs ≠ [])
    (hkind : ∀ x ∈ xs, x.kind = k) :
    ∃ r, c.raiseAll xs = .ok r ∧ RaisedBy xs c r := by
  induction xs generalizing c with
  | nil => exact absurd rfl hne
  | cons x xs ih =>
    obtain ⟨hx, hxs⟩ := List.forall_mem_cons.1 hkind
    obtain ⟨d, hd, htree, hraised⟩ := h.exists_upperBound hx
    rw [raiseAll, List.foldlM_cons, hd, Except.ok_bind]
    cases xs with
    | nil => exact ⟨d, rfl, hraised⟩
    | cons z xs =>
      obtain ⟨r, hr, hrest⟩ := ih htree nofun hxs
      exact ⟨r, hr, hraised.trans hrest⟩

end Cursor

end StreamProgress
