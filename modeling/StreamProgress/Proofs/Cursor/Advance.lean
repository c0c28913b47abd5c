import StreamProgress.Cursor.Advance
import StreamProgress.Proofs.Cursor.Coverage

/-!
# What an advance can do

A cursor advances by one of a few moves, and everything that is proved about advancing is proved
for each of them. The moves are relations here, one constructor for each way through the rules,
with the conditions under which it is taken. `Cursor.advance` is not unfolded after this file.

## The three moves

* `HalfMove` — a half of a merged cursor starts, is joined with the position, stays, or advances
* `MergedMove` — a merged cursor converges or stays merged
* `ReplayMove` — a replay reads again, ends, or raises its reset point

## Main results

* `Cursor.covers_of_advance`, `covers_of_upperBound` — a cursor that moved to a position covers it
-/

namespace StreamProgress

namespace Cursor

variable {c r x : Cursor} {half lower upper current : Option Cursor}
  {lowerAdvanced upperAdvanced replaying : Bool} {p : Position}

/-! ### One half of a merged cursor -/

/-- The move of one half of a merged cursor to `x`. -/
inductive HalfMove (x : Cursor) : Option Cursor → Cursor → Prop
  /-- An absent half starts at the position. -/
  | started : HalfMove x none x
  /-- A plain half is joined with the position. -/
  | joined {p : Position} {r : Cursor} (h : (plain p).upperBound x = .ok r) :
    HalfMove x (some (plain p)) r
  /-- A wrapping half that covers the position stays what it is. -/
  | kept {c : Cursor} (hwraps : c.kind.wraps = true) (hcovers : c.covers x = .ok true) :
    HalfMove x (some c) c
  /-- A wrapping half that does not cover the position advances by its own rule. -/
  | moved {c r : Cursor} (hwraps : c.kind.wraps = true) (hcovers : c.covers x = .ok false)
      (h : c.advance x = .ok r) :
    HalfMove x (some c) r

theorem kind_wraps_plain (p : Position) : (plain p).kind.wraps = false := by
  cases p <;> rfl

theorem advanceHalf_of_wraps (h : c.kind.wraps = true) :
    advanceHalf (some c) x = keepOr c (advance c) x := by
  cases c with
  | plain p => simp [kind_wraps_plain] at h
  | replay reset current replaying => rfl
  | merged lower upper lowerAdvanced upperAdvanced => rfl

theorem keepOr_eq_ok_iff {step : Cursor → Except CursorFault Cursor} :
    keepOr c step x = .ok r ↔
      (c.covers x = .ok true ∧ r = c) ∨ (c.covers x = .ok false ∧ step x = .ok r) := by
  simp only [keepOr, Except.bind_eq_ok_iff]
  constructor
  · rintro ⟨b, hb, h⟩
    cases b with
    | true => exact .inl ⟨hb, (Except.ok.inj h).symm⟩
    | false => exact .inr ⟨hb, h⟩
  · rintro (⟨hc, rfl⟩ | ⟨hc, h⟩)
    · exact ⟨true, hc, rfl⟩
    · exact ⟨false, hc, h⟩

theorem advanceHalf_eq_ok_iff : advanceHalf half x = .ok r ↔ HalfMove x half r := by
  constructor
  · intro h
    cases half with
    | none =>
      obtain rfl : x = r := Except.ok.inj h
      exact .started
    | some c =>
      by_cases hw : c.kind.wraps = true
      · rw [advanceHalf_of_wraps hw, keepOr_eq_ok_iff] at h
        obtain ⟨hc, rfl⟩ | ⟨hc, h⟩ := h
        · exact .kept hw hc
        · exact .moved hw hc h
      · cases c with
        | plain p => exact .joined h
        | replay reset current replaying => exact absurd rfl hw
        | merged lower upper lowerAdvanced upperAdvanced => exact absurd rfl hw
  · rintro (_ | h | ⟨hw, hc⟩ | ⟨hw, hc, h⟩)
    · rfl
    · exact h
    · rw [advanceHalf_of_wraps hw, keepOr_eq_ok_iff]
      exact .inl ⟨hc, rfl⟩
    · rw [advanceHalf_of_wraps hw, keepOr_eq_ok_iff]
      exact .inr ⟨hc, h⟩

/-! ### Merged cursors -/

/-- The move of a merged cursor to `x`. -/
inductive MergedMove (x : Cursor) (lower upper : Option Cursor) : Cursor → Prop
  /-- Both halves have moved and are equal now. -/
  | converged {l u : Cursor} (hl : HalfMove x lower l) (hu : HalfMove x upper u)
      (hlower : (lower != some l) = true) (hupper : (upper != some u) = true)
      (heq : (l == u) = true) :
    MergedMove x lower upper l
  /-- A half has not moved, or the halves still differ. -/
  | pending {l u : Cursor} (hl : HalfMove x lower l) (hu : HalfMove x upper u)
      (hne : (lower != some l && upper != some u && l == u) = false) :
    MergedMove x lower upper (merged (some l) (some u) (lower != some l) (upper != some u))

theorem advance_merged_eq_ok_iff :
    (merged lower upper lowerAdvanced upperAdvanced).advance x = .ok r ↔
      MergedMove x lower upper r := by
  simp only [advance, Except.bind_eq_ok_iff, advanceHalf_eq_ok_iff]
  constructor
  · rintro ⟨l, hl, u, hu, h⟩
    split at h
    · rename_i hc
      obtain rfl : l = r := Except.ok.inj h
      simp only [Bool.and_eq_true] at hc
      exact .converged hl hu hc.1.1 hc.1.2 hc.2
    · rename_i hc
      obtain rfl := Except.ok.inj h
      exact .pending hl hu (Bool.eq_false_iff.2 hc)
  · rintro (⟨hl, hu, hlower, hupper, heq⟩ | ⟨hl, hu, hne⟩)
    · exact ⟨_, hl, _, hu, by rw [if_pos (by simp only [hlower, hupper, heq, Bool.and_self])]; rfl⟩
    · exact ⟨_, hl, _, hu, by rw [if_neg (by rw [hne]; simp)]; rfl⟩

theorem upperBound_merged_eq_ok_iff :
    (merged lower upper lowerAdvanced upperAdvanced).upperBound x = .ok r ↔
      ∃ l u, HalfMove x lower l ∧ HalfMove x upper u ∧ r = mergeSome l u := by
  simp only [upperBound, Except.bind_eq_ok_iff, advanceHalf_eq_ok_iff]
  constructor
  · rintro ⟨l, hl, u, hu, h⟩
    exact ⟨l, u, hl, hu, (Except.ok.inj h).symm⟩
  · rintro ⟨l, u, hl, hu, rfl⟩
    exact ⟨l, hl, u, hu, rfl⟩

/-! ### Replays -/

/-- The move of a replay to `x`, whatever the second reading has come to. -/
inductive ReplayMove (x reset : Cursor) : Cursor → Prop
  /-- The position had been read before the reset. -/
  | reread (b : Bool) (hreaches : reaches reset x = .ok b) (hcovers : reset.covers x = .ok true) :
    ReplayMove x reset (replay reset (some x) true)
  /-- The position is beyond everything that had been read before the reset. -/
  | ended {r : Cursor} (hreaches : reaches reset x = .ok true)
      (hcovers : reset.covers x = .ok false) (h : reset.advance x = .ok r) :
    ReplayMove x reset r
  /-- The position had not been read, but neither is it beyond the reset point. -/
  | raised {reset' current : Cursor} (hreaches : reaches reset x = .ok false)
      (hcovers : reset.covers x = .ok false) (hraise : reset.upperBound x = .ok reset')
      (h : reset.advance x = .ok current) :
    ReplayMove x reset (replay reset' (some current) false)

theorem replayStep_eq_ok_iff {reset : Cursor} :
    replayStep reset (upperBound reset) (advance reset) x = .ok r ↔ ReplayMove x reset r := by
  simp only [replayStep, Except.bind_eq_ok_iff]
  constructor
  · rintro ⟨reached, hreaches, covered, hcovers, h⟩
    cases covered with
    | true =>
      obtain rfl := Except.ok.inj h
      exact .reread reached hreaches hcovers
    | false =>
      cases reached with
      | true => exact .ended hreaches hcovers h
      | false =>
        simp only [Bool.false_eq_true, if_false, Except.bind_eq_ok_iff] at h
        obtain ⟨reset', hraise, current, hadvance, h⟩ := h
        obtain rfl := Except.ok.inj h
        exact .raised hreaches hcovers hraise hadvance
  · rintro (⟨b, hreaches, hcovers⟩ | ⟨hreaches, hcovers, h⟩ | ⟨hreaches, hcovers, hraise, h⟩)
    · exact ⟨b, hreaches, true, hcovers, rfl⟩
    · exact ⟨true, hreaches, false, hcovers, h⟩
    · refine ⟨false, hreaches, false, hcovers, ?_⟩
      simp only [Bool.false_eq_true, if_false, Except.bind_eq_ok_iff]
      exact ⟨_, hraise, _, h, rfl⟩

theorem advance_replay_eq_ok_iff {reset : Cursor} :
    (replay reset current replaying).advance x = .ok r ↔ ReplayMove x reset r :=
  replayStep_eq_ok_iff

/-- Raised to a position, a replay moves as it does when it advances. -/
theorem upperBound_replay_plain {reset : Cursor} :
    (replay reset current replaying).upperBound (plain p) =
      (replay reset current replaying).advance (plain p) := rfl

/-! ### Plain cursors -/

theorem upperBound_plain_eq_ok_iff {q : Position} :
    (plain p).upperBound (plain q) = .ok r ↔ ∃ s, p.join q = .ok s ∧ r = plain s := by
  simp only [upperBound, asPlain_plain, Except.ok_bind, Except.bind_eq_ok_iff]
  constructor
  · rintro ⟨s, hs, h⟩
    exact ⟨s, hs, (Except.ok.inj h).symm⟩
  · rintro ⟨s, hs, rfl⟩
    exact ⟨s, hs, rfl⟩

/-! ### A cursor covers where it moved to -/

theorem covers_self (p : Position) : (plain p).covers (plain p) = .ok true := le_refl p

theorem HalfMove.covers (h : HalfMove (plain p) half r)
    (ih : ∀ c ∈ half, ∀ r, c.advance (plain p) = .ok r → r.covers (plain p) = .ok true) :
    r.covers (plain p) = .ok true := by
  cases h with
  | started => exact covers_self p
  | joined h =>
    obtain ⟨s, hs, rfl⟩ := upperBound_plain_eq_ok_iff.1 h
    exact Position.le_join_right hs
  | kept _ hcovers => exact hcovers
  | moved _ _ h => exact ih _ rfl _ h

/-- **An advance covers its position.** The induction is on the cursor; a replay that ends or is
raised advances its reset point, and a merged cursor is covered half by half. -/
theorem covers_of_advance (h : c.advance (plain p) = .ok r) : r.covers (plain p) = .ok true := by
  induction c generalizing r with
  | plain q =>
    obtain rfl : plain p = r := Except.ok.inj h
    exact covers_self p
  | replay reset current replaying ih _ =>
    cases advance_replay_eq_ok_iff.1 h with
    | reread => exact covers_self p
    | ended _ _ hadvance => exact ih hadvance
    | raised _ _ _ hadvance =>
      rw [covers_replay]
      exact ih hadvance
  | merged lower upper lowerAdvanced upperAdvanced ihLower ihUpper =>
    cases advance_merged_eq_ok_iff.1 h with
    | converged hl => exact hl.covers fun c hc _ => ihLower c hc
    | pending hl hu =>
      exact covers_merged_eq_ok_true_iff.2
        ⟨hl.covers fun c hc _ => ihLower c hc, hu.covers fun c hc _ => ihUpper c hc⟩

theorem covers_of_upperBound (h : c.upperBound (plain p) = .ok r) :
    r.covers (plain p) = .ok true := by
  cases c with
  | plain q =>
    obtain ⟨s, hs, rfl⟩ := upperBound_plain_eq_ok_iff.1 h
    exact Position.le_join_right hs
  | replay reset current replaying =>
    rw [upperBound_replay_plain] at h
    exact covers_of_advance h
  | merged lower upper lowerAdvanced upperAdvanced =>
    obtain ⟨l, u, hl, hu, rfl⟩ := upperBound_merged_eq_ok_iff.1 h
    have hlc := hl.covers fun _ _ _ => covers_of_advance
    have huc := hu.covers fun _ _ _ => covers_of_advance
    rw [mergeSome]
    split
    · exact hlc
    · exact covers_merged_eq_ok_true_iff.2 ⟨hlc, huc⟩

end Cursor

end StreamProgress
