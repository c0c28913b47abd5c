import StreamProgress.Proofs.Cursor.Advance

/-!
# Replays

A replay reads again what had been read before a reset. It must not be over before everything up to
the reset point has been read again, and until then the reset point has to grow with every position
that had not been read, or the replay would be over at a position that leaves some of them out.

## When a replay is over

`Cursor.advance` ends a replay at a position that covers the ceiling of the reset point, and gives
back the reset point advanced to it; what the reset point covers is decided by its floor. The two
fit together because a cursor with a floor has a ceiling above it, so `Cursor.covers_of_replay_over`
needs no case analysis on what the reset point is made of.

## Runs

Over a plain reset point a run is told by its positions alone. `Position.joinAll` is the reset point
after some of them, and the replay is over at the first position that passes it
(`Position.Passes`). Positions of one kind are only partially ordered, so a position that is not
covered need not pass: it raises the reset point, and the replay goes on.

## Main results

* `Cursor.covers_of_replay_over` — a replay that is over has covered its reset point
* `Cursor.advance_replay_of_lt`, `advance_replay_of_not_lt` — a step over a plain reset point
* `Cursor.advanceAll_replay` — a run over a plain reset point
-/

namespace StreamProgress

namespace Position

/-- The join of a position with the positions of a list, one after the other. -/
def joinAll (p : Position) (positions : List Position) : Except CursorFault Position :=
  positions.foldlM join p

/-- Position `n` of a list passes what the ones before it have raised `p` to: it covers all of that
and is not covered by it. -/
def Passes (p : Position) (positions : List Position) (n : ℕ) : Prop :=
  ∃ x before, positions[n]? = some x ∧ p.joinAll (positions.take n) = .ok before ∧
    x.covers before = .ok true ∧ before.covers x = .ok false

variable {p q x : Position}

@[simp] theorem joinAll_nil (p : Position) : p.joinAll [] = .ok p := rfl

theorem joinAll_cons (h : p.join x = .ok q) (positions : List Position) :
    p.joinAll (x :: positions) = q.joinAll positions := by
  rw [joinAll, List.foldlM_cons, h]
  rfl

theorem covers_eq_ok_false_iff (h : p.kind = x.kind) : p.covers x = .ok false ↔ ¬x ≤ p := by
  rw [covers_of_kind_eq h, Except.ok.injEq, decide_eq_false_iff_not]

theorem passes_zero_iff (h : p.kind = x.kind) (positions : List Position) :
    p.Passes (x :: positions) 0 ↔ p < x := by
  rw [lt_iff_le_not_ge, ← covers_eq_ok_false_iff h]
  constructor
  · rintro ⟨_, _, ⟨⟩, ⟨⟩, hle, hnot⟩
    exact ⟨hle, hnot⟩
  · rintro ⟨hle, hnot⟩
    exact ⟨x, p, rfl, rfl, hle, hnot⟩

theorem passes_succ_iff (h : p.join x = .ok q) (positions : List Position) (n : ℕ) :
    p.Passes (x :: positions) (n + 1) ↔ q.Passes positions n := by
  simp only [Passes, List.getElem?_cons_succ, List.take_succ_cons, joinAll_cons h]

end Position

namespace Cursor

variable {reset r : Cursor} {current : Option Cursor} {replaying : Bool} {p q x y : Position}

/-! ### When a replay is over -/

/-- A position that reaches a reset point covers whatever the reset point covers. -/
theorem le_of_reaches (h : reset.reaches (plain x) = .ok true)
    (hy : reset.covers (plain y) = .ok true) : y ≤ x := by
  obtain ⟨low, hlow, hylow⟩ := exists_floor_of_covers hy
  obtain ⟨top, htop, hle⟩ := exists_ceiling_of_floor hlow
  rw [reaches, htop] at h
  have htopx : top ≤ x := h
  exact hylow.trans (hle.trans htopx)

/-- **A replay is not over too early.** Where it leads to a cursor that is no replay, that cursor
covers everything that the reset point covered. -/
theorem covers_of_replay_over (h : (replay reset current replaying).advance (plain x) = .ok r)
    (hover : r.kind ≠ .replay) (hy : reset.covers (plain y) = .ok true) :
    r.covers (plain y) = .ok true := by
  cases advance_replay_eq_ok_iff.1 h with
  | reread => exact absurd rfl hover
  | ended hreaches _ hadvance =>
    exact covers_of_le (covers_of_advance hadvance) (le_of_reaches hreaches hy)
  | raised => exact absurd rfl hover

/-- The reset point is merged, and the replay leaves a merge that has not converged: its upper half
was at the position already and has not moved. -/
theorem covers_of_replay_over_merged :
    (replay (merged (some (sequence 5)) (some (sequence 7)) false false) (some (sequence 2))
        true).advance (sequence 7) =
      .ok (merged (some (sequence 7)) (some (sequence 7)) true false) ∧
      (merged (some (sequence 5)) (some (sequence 7)) false false).covers (sequence 5) = .ok true ∧
        (merged (some (sequence 7)) (some (sequence 7)) true false).covers (sequence 5) =
          .ok true := by
  have hadvance : (replay (merged (some (sequence 5)) (some (sequence 7)) false false)
      (some (sequence 2)) true).advance (sequence 7) =
        .ok (merged (some (sequence 7)) (some (sequence 7)) true false) := rfl
  have hreset : (merged (some (sequence 5)) (some (sequence 7)) false false).covers (sequence 5) =
      .ok true := rfl
  exact ⟨hadvance, hreset, covers_of_replay_over hadvance nofun hreset⟩

/-! ### A step over a plain reset point -/

/-- Wherever a replay goes from a plain reset point, it covers what the position covers. -/
theorem covers_of_advance_replay_plain
    (h : (replay (plain p) current replaying).advance (plain x) = .ok r) :
    r.covers (plain y) = x.covers y := by
  cases advance_replay_eq_ok_iff.1 h with
  | reread => rfl
  | ended _ _ hadvance =>
    obtain rfl : plain x = r := Except.ok.inj hadvance
    rfl
  | raised _ _ _ hadvance =>
    obtain rfl := Except.ok.inj hadvance
    rfl

theorem reaches_plain (p x : Position) : (plain p).reaches (plain x) = x.covers p := rfl

/-- A position that covers a plain reset point, and is not covered by it, ends the replay. -/
theorem advance_replay_of_lt (h : p < x) :
    (replay (plain p) current replaying).advance (plain x) = .ok (plain x) := by
  have hkind : p.kind = x.kind := Position.kind_eq_of_le h.le
  have hcovers : (plain p).covers (plain x) = .ok false := by
    rw [covers_plain, Position.covers_eq_ok_false_iff hkind]
    exact h.not_ge
  exact advance_replay_eq_ok_iff.2 (.ended h.le hcovers rfl)

/-- Any other position is where the second reading is then, and the reset point is joined with
it. -/
theorem advance_replay_of_not_lt (hkind : p.kind = x.kind) (h : ¬p < x) :
    ∃ q, p.join x = .ok q ∧
      (replay (plain p) current replaying).advance (plain x) =
        .ok (replay (plain q) (some (plain x)) (decide (x ≤ p))) := by
  have hcovers := Position.covers_of_kind_eq hkind
  by_cases hle : x ≤ p
  · rw [decide_eq_true hle] at hcovers ⊢
    refine ⟨p, Position.join_of_le hle, ?_⟩
    exact advance_replay_eq_ok_iff.2 (.reread _ (Position.covers_of_kind_eq hkind.symm) hcovers)
  · have hreaches : (plain p).reaches (plain x) = .ok false := by
      rw [reaches_plain, Position.covers_eq_ok_false_iff hkind.symm]
      exact fun hpx => h (lt_of_le_not_ge hpx hle)
    obtain ⟨q, hq⟩ := Position.exists_join hkind
    rw [decide_eq_false hle] at hcovers ⊢
    exact ⟨q, hq, advance_replay_eq_ok_iff.2
      (.raised hreaches hcovers (upperBound_plain_eq_ok_iff.2 ⟨q, hq, rfl⟩) rfl)⟩

/-! ### Runs -/

/-- The cursors after each of the positions that are threaded into a cursor. -/
def advanceAll : Option Cursor → List Cursor → Except CursorFault (List Cursor)
  | _, [] => .ok []
  | c, position :: positions => do
    let next ← advanceFrom c position
    let steps ← advanceAll (some next) positions
    return next :: steps

theorem advanceAll_cons {c next position : Cursor} {positions steps : List Cursor}
    (hnext : c.advance position = .ok next) (hsteps : advanceAll (some next) positions = .ok steps) :
    advanceAll (some c) (position :: positions) = .ok (next :: steps) := by
  rw [advanceAll, advanceFrom, hnext, Except.ok_bind, hsteps]
  rfl

/-- A plain cursor is wherever the last position was. -/
theorem advanceAll_plain (p : Position) (positions : List Position) :
    advanceAll (some (plain p)) (positions.map plain) = .ok (positions.map plain) := by
  induction positions generalizing p with
  | nil => rfl
  | cons x positions ih => exact advanceAll_cons rfl (ih x)

/-- What step `n` of a run does to a replay over the plain reset point `p`. -/
structure ReplayStep (p : Position) (positions : List Position) (n : ℕ) (hn : n < positions.length)
    (step : Cursor) : Prop where
  /-- Until a position passes, the reset point is joined with the positions so far, and `replaying`
  says whether the last one had been read by then. -/
  pending : (∀ k ≤ n, ¬p.Passes positions k) →
    ∃ before after seen, p.joinAll (positions.take n) = .ok before ∧
      p.joinAll (positions.take (n + 1)) = .ok after ∧ before.covers positions[n] = .ok seen ∧
        step = replay (plain after) (some (plain positions[n])) seen
  /-- At the first position that passes, and from then on, the cursor is the last position. -/
  ended : (∃ k ≤ n, p.Passes positions k) → step = plain positions[n]

/-- The first step of a run, if the first position does not pass. -/
theorem ReplayStep.first {positions : List Position} (hnot : ¬p.Passes (x :: positions) 0)
    (hkind : p.kind = x.kind) (hjoin : p.join x = .ok q) :
    ReplayStep p (x :: positions) 0 (Nat.succ_pos _)
      (replay (plain q) (some (plain x)) (decide (x ≤ p))) := by
  refine ⟨fun _ => ?_, ?_⟩
  · have hafter : p.joinAll ((x :: positions).take 1) = .ok q := by
      rw [List.take_succ_cons, Position.joinAll_cons hjoin]
      rfl
    exact ⟨p, q, decide (x ≤ p), rfl, hafter, Position.covers_of_kind_eq hkind, rfl⟩
  · rintro ⟨k, hk, hpasses⟩
    obtain rfl := Nat.le_zero.1 hk
    exact absurd hpasses hnot

/-- A step of the rest of a run is a step of the run, if the first position does not pass. -/
theorem ReplayStep.succ {positions : List Position} {n : ℕ} {hn : n < positions.length}
    {step : Cursor} (hnot : ¬p.Passes (x :: positions) 0) (hjoin : p.join x = .ok q)
    (h : ReplayStep q positions n hn step) :
    ReplayStep p (x :: positions) (n + 1) (Nat.succ_lt_succ hn) step := by
  refine ⟨?_, ?_⟩
  · intro hnone
    obtain ⟨before, after, seen, hbefore, hafter, hseen, rfl⟩ := h.pending fun k hk hpasses =>
      hnone (k + 1) (Nat.succ_le_succ hk) ((Position.passes_succ_iff hjoin positions k).2 hpasses)
    refine ⟨before, after, seen, ?_, ?_, hseen, rfl⟩
    · rw [List.take_succ_cons, Position.joinAll_cons hjoin, hbefore]
    · rw [List.take_succ_cons, Position.joinAll_cons hjoin, hafter]
  · rintro ⟨k, hk, hpasses⟩
    cases k with
    | zero => exact absurd hpasses hnot
    | succ k =>
      exact h.ended
        ⟨k, Nat.le_of_succ_le_succ hk, (Position.passes_succ_iff hjoin positions k).1 hpasses⟩

/-- **The run of a replay.** Take a replay over a plain reset point, whatever the second reading has
come to, and positions of the kind of the reset point. No step fails. Up to the first position that
passes the reset point, which is joined with every position on the way, the cursor is a replay at
the last position; that position ends the replay, and from then on the cursor follows the
positions. -/
theorem advanceAll_replay {positions : List Position} (current : Option Cursor) (replaying : Bool)
    (hkind : ∀ x ∈ positions, x.kind = p.kind) :
    ∃ steps, advanceAll (some (replay (plain p) current replaying)) (positions.map plain) =
        .ok steps ∧
      steps.length = positions.length ∧
        ∀ n (hs : n < steps.length) (hn : n < positions.length),
          ReplayStep p positions n hn steps[n] := by
  induction positions generalizing p current replaying with
  | nil => exact ⟨[], rfl, rfl, nofun⟩
  | cons x positions ih =>
    obtain ⟨hx, hpositions⟩ := List.forall_mem_cons.1 hkind
    have hfirst := Position.passes_zero_iff hx.symm positions
    by_cases hlt : p < x
    · -- the replay is over, and the rest is the run of a plain cursor
      refine ⟨_, advanceAll_cons (advance_replay_of_lt hlt) (advanceAll_plain x positions), ?_, ?_⟩
      · rw [List.length_cons, List.length_cons, List.length_map]
      · intro n hs hn
        refine ⟨fun hnone => absurd (hfirst.2 hlt) (hnone 0 (Nat.zero_le n)), fun _ => ?_⟩
        cases n with
        | zero => rfl
        | succ n => exact List.getElem_map plain
    · -- the replay goes on over the raised reset point
      obtain ⟨q, hjoin, hadvance⟩ := advance_replay_of_not_lt hx.symm hlt
      have hq : q.kind = p.kind := (Position.kind_eq_of_le (Position.le_join_left hjoin)).symm
      obtain ⟨steps, hsteps, hlength, h⟩ := ih (p := q) (some (plain x)) (decide (x ≤ p))
        fun z hz => (hpositions z hz).trans hq.symm
      have hnot : ¬p.Passes (x :: positions) 0 := fun hpasses => hlt (hfirst.1 hpasses)
      refine ⟨_, advanceAll_cons hadvance hsteps, congrArg (· + 1) hlength, ?_⟩
      intro n hs hn
      cases n with
      | zero => exact .first hnot hx.symm hjoin
      | succ n =>
        exact (h n (Nat.lt_of_succ_lt_succ hs) (Nat.lt_of_succ_lt_succ hn)).succ hnot hjoin

/-- Partition `b` runs ahead of the reset point while `a` is behind it, so the second position raises
the reset point. The fourth one passes it, and the last one goes back. -/
theorem advanceAll_replay_partitions :
    ∃ (p : Position) (positions : List Position) (steps : List Cursor),
      p = .partitions (.ofPairs [("a", 2), ("b", 2)]) ∧
        positions =
          [[("a", 1)], [("a", 1), ("b", 3)], [("b", 3)], [("a", 3), ("b", 3)], [("a", 1)]].map
            (fun pairs => .partitions (.ofPairs pairs)) ∧
        (∀ x ∈ positions, x.kind = p.kind) ∧
        advanceAll (some (replay (plain p) none true)) (positions.map plain) = .ok steps ∧
        steps.length = positions.length ∧
        (∀ n (hs : n < steps.length) (hn : n < positions.length),
          ReplayStep p positions n hn steps[n]) ∧
        steps.map kind = [.replay, .replay, .replay, .partitionOffsets, .partitionOffsets] := by
  obtain ⟨p, hp⟩ : ∃ p : Position, p = .partitions (.ofPairs [("a", 2), ("b", 2)]) := ⟨_, rfl⟩
  obtain ⟨positions, hpositions⟩ : ∃ positions : List Position, positions =
      [[("a", 1)], [("a", 1), ("b", 3)], [("b", 3)], [("a", 3), ("b", 3)], [("a", 1)]].map
        (fun pairs => .partitions (.ofPairs pairs)) := ⟨_, rfl⟩
  have hkind : ∀ x ∈ positions, x.kind = p.kind := by
    subst hp hpositions
    intro x hx
    obtain ⟨pairs, -, rfl⟩ := List.mem_map.1 hx
    rfl
  have hkinds : (advanceAll (some (replay (plain p) none true)) (positions.map plain)).map
      (List.map kind) =
        .ok [.replay, .replay, .replay, .partitionOffsets, .partitionOffsets] := by
    subst hp hpositions
    rfl
  obtain ⟨steps, hsteps, hlength, h⟩ := advanceAll_replay none true hkind
  rw [hsteps] at hkinds
  exact ⟨p, positions, steps, hp, hpositions, hkind, hsteps, hlength, h, Except.ok.inj hkinds⟩

end Cursor

end StreamProgress
