import StreamProgress.Cursor.Access
import StreamProgress.Proofs.Cursor.ReadBack
import StreamProgress.Proofs.Cursor.Replay

/-!
# Replays that are reloaded

A cursor is read back with its flags at their defaults, and the two kinds of flags go opposite
ways: a replay is replaying again, and of a merged cursor no half has moved. Whether a cursor is
replaying depends on both. A reloaded replay is replaying, and a reloaded merged cursor is not, even
if the half that had moved was a replay: which half that was is not written.

## What is forgotten comes back

The answer is about the last advance. Each half that is followed for it has moved in that advance,
and what has moved has the flags of that step. So the flags that a cursor had before do not show in
what it answers afterwards, at whatever depth they were, and from the first advance on a reloaded
cursor cannot be told from the one that was written, by its answers or by its faults.

## Main definitions

* `Cursor.replayView` — what is seen of a cursor when it is asked whether it is replaying

## Main results

* `Cursor.isReplay_bare` — the answer of a cursor that was read and not advanced yet
* `Cursor.advance_bare_replayView` — older flags do not reach the answer after an advance
* `Cursor.isReplay_reload` — the answers of a reloaded cursor, now and after each later advance
-/

namespace StreamProgress

namespace Cursor

variable {c d r x : Cursor} {half : Option Cursor}

/-! ### Cursors that are replaying -/

theorem isReplay_plain (p : Position) : isReplay (some (plain p)) = false := by
  cases p <;> rfl

theorem isReplay_merged (lower upper : Option Cursor) (lowerAdvanced upperAdvanced : Bool) :
    isReplay (some (merged lower upper lowerAdvanced upperAdvanced)) =
      if lowerAdvanced then isReplay lower
      else if upperAdvanced then isReplay upper
      else false := by
  cases lowerAdvanced <;> cases upperAdvanced <;> rfl

/-- With its flags at their defaults a cursor is replaying iff it is a replay itself. -/
theorem isReplay_bare (c : Cursor) : isReplay (some c.bare) = true ↔ c.kind = .replay := by
  cases c with
  | plain p =>
    cases p <;> simp [bare, isReplay_plain, kind, Position.kind]
  | replay reset current replaying => exact iff_of_true rfl rfl
  | merged lower upper lowerAdvanced upperAdvanced => simp [bare, isReplay_merged, kind]

/-! ### After an advance -/

theorem bare_eq_of_advance_bare {s : Cursor} (h : c.advance x = .ok r)
    (h' : c.bare.advance x = .ok s) : s.bare = r.bare := by
  obtain ⟨t, ht, hshown⟩ := Except.exists_eq_ok_of_map (advance_bare c x) h
  obtain rfl := Except.ok.inj (h'.symm.trans ht)
  exact (shown_eq_iff.1 hshown).1

/-- A half moves as its bare form does. If it has moved the results answer alike. -/
theorem HalfMove.exists_bareHalf (h : HalfMove x half r)
    (ih : ∀ c ∈ half, c.advance x = .ok r →
      ∃ s, c.bare.advance x = .ok s ∧ isReplay (some s) = isReplay (some r)) :
    ∃ s, HalfMove x (bareHalf half) s ∧ s.bare = r.bare ∧
      ((half != some r) = true → isReplay (some s) = isReplay (some r)) := by
  cases h with
  | started => exact ⟨r, .started, rfl, fun _ => rfl⟩
  | joined hjoin => exact ⟨r, .joined hjoin, rfl, fun _ => rfl⟩
  | kept hwraps hcovers =>
    refine ⟨r.bare, .kept (by rwa [kind_bare]) (by rwa [covers_bare]), bare_bare r, ?_⟩
    intro hmoved
    rw [bne_half_self] at hmoved
    cases hmoved
  | @moved c _ hwraps hcovers hadvance =>
    obtain ⟨s, hs, hanswer⟩ := ih c rfl hadvance
    exact ⟨s, .moved (by rwa [kind_bare]) (by rwa [covers_bare]) hs,
      bare_eq_of_advance_bare hadvance hs, fun _ => hanswer⟩

/-- An advance that succeeds does so from the bare cursor, and the results answer alike. -/
theorem exists_advance_bare (h : c.advance x = .ok r) :
    ∃ s, c.bare.advance x = .ok s ∧ isReplay (some s) = isReplay (some r) := by
  induction c generalizing r with
  | plain p => exact ⟨r, h, rfl⟩
  | replay reset current replaying ih _ =>
    have hbare {s : Cursor} (hs : ReplayMove x reset.bare s) :
        (replay reset current replaying).bare.advance x = .ok s := advance_replay_eq_ok_iff.2 hs
    cases advance_replay_eq_ok_iff.1 h with
    | reread b hreaches hcovers =>
      exact ⟨_, hbare (.reread b (by rwa [reaches_bare]) (by rwa [covers_bare])), rfl⟩
    | ended hreaches hcovers hadvance =>
      obtain ⟨s, hs, hanswer⟩ := ih hadvance
      exact ⟨s, hbare (.ended (by rwa [reaches_bare]) (by rwa [covers_bare]) hs), hanswer⟩
    | @raised reset' current' hreaches hcovers hraise hadvance =>
      obtain ⟨s, hs, -⟩ := ih hadvance
      obtain ⟨b, hb, -⟩ := Except.exists_eq_ok_of_map (upperBound_bare reset x) hraise
      exact ⟨_, hbare (.raised (by rwa [reaches_bare]) (by rwa [covers_bare]) hb hs), rfl⟩
  | merged lower upper lowerAdvanced upperAdvanced ihLower ihUpper =>
    have hbare {s : Cursor} (hs : MergedMove x (bareHalf lower) (bareHalf upper) s) :
        (merged lower upper lowerAdvanced upperAdvanced).bare.advance x = .ok s :=
      advance_merged_eq_ok_iff.2 hs
    cases advance_merged_eq_ok_iff.1 h with
    | @converged _ u hl hu hlower hupper heq =>
      obtain ⟨l', hl', hlbare, hanswer⟩ := hl.exists_bareHalf fun c hc h => ihLower c hc h
      obtain ⟨u', hu', hubare, -⟩ := hu.exists_bareHalf fun c hc h => ihUpper c hc h
      refine ⟨l', hbare (.converged hl' hu' ?_ ?_ ?_), hanswer hlower⟩
      · rwa [bne_half_congr (map_bare_bareHalf lower) hlbare]
      · rwa [bne_half_congr (map_bare_bareHalf upper) hubare]
      · rwa [beq_congr hlbare hubare]
    | @pending l u hl hu hne =>
      obtain ⟨l', hl', hlbare, hlower⟩ := hl.exists_bareHalf fun c hc h => ihLower c hc h
      obtain ⟨u', hu', hubare, hupper⟩ := hu.exists_bareHalf fun c hc h => ihUpper c hc h
      have hlmoved := bne_half_congr (map_bare_bareHalf lower) hlbare
      have humoved := bne_half_congr (map_bare_bareHalf upper) hubare
      refine ⟨_, hbare (.pending hl' hu' ?_), ?_⟩
      · rw [hlmoved, humoved, beq_congr hlbare hubare]
        exact hne
      · rw [isReplay_merged, isReplay_merged, hlmoved, humoved]
        split
        · exact hlower ‹_›
        · split
          · exact hupper ‹_›
          · rfl

/-- What is seen of a cursor when it is asked whether it is replaying. -/
def replayView (c : Cursor) : Cursor × Bool := (c.bare, isReplay (some c))

/-- **Older flags do not reach the answer.** From a cursor and from its bare form the same position
leads to the same fault, or to equal results that are both replaying or both not. -/
theorem advance_bare_replayView (c x : Cursor) :
    (c.bare.advance x).map replayView = (c.advance x).map replayView := by
  refine Except.map_eq_map_of_ok (advance_bare c x) ?_
  intro r hr
  obtain ⟨s, hs, hanswer⟩ := exists_advance_bare hr
  exact ⟨s, hs, Prod.mk_inj.2 ⟨bare_eq_of_advance_bare hr hs, hanswer⟩⟩

/-- Equal cursors answer alike after every advance of a run. -/
theorem advanceAll_replayView_congr (h : c.bare = d.bare) (positions : List Cursor) :
    (advanceAll (some c) positions).map (List.map replayView) =
      (advanceAll (some d) positions).map (List.map replayView) := by
  induction positions generalizing c d with
  | nil => rfl
  | cons x positions ih =>
    have hstep : (c.advance x).map replayView = (d.advance x).map replayView := by
      rw [← advance_bare_replayView c, ← advance_bare_replayView d, h]
    simp only [advanceAll, advanceFrom]
    refine Except.map_bind_congr hstep ?_
    intro a b hab
    refine Except.map_bind_congr (ih (Prod.mk_inj.1 hab).1) ?_
    intro steps steps' hsteps
    exact congrArg Except.ok (by rw [List.map_cons, List.map_cons, hab, hsteps])

/-! ### After a reload -/

/-- **A reloaded cursor is replaying iff it is a replay itself,** until it is advanced. After every
advance it answers as the cursor does that was written. -/
theorem isReplay_reload (hformed : c.wellFormed = true) (hdepth : c.depth ≤ Json.maxNesting) :
    ∃ d, parse c.text = .ok d ∧ (d == c) = true ∧
      (isReplay (some d) = true ↔ c.kind = .replay) ∧
      ∀ positions, (advanceAll (some d) positions).map (List.map fun r => isReplay (some r)) =
        (advanceAll (some c) positions).map (List.map fun r => isReplay (some r)) := by
  refine ⟨c.bare, ?_, beq_iff.2 (bare_bare c), isReplay_bare c, ?_⟩
  · rw [parse_text, if_neg (Nat.not_lt.2 hdepth), if_pos hformed]
  · intro positions
    refine Except.map_congr_of_map (advanceAll_replayView_congr (bare_bare c) positions) ?_
    intro steps steps' hsteps
    have hanswers := congrArg (List.map Prod.snd) hsteps
    rwa [List.map_map, List.map_map] at hanswers

/-- A replay that has come to a merged cursor. The flags in it are forgotten, and the replay is
still replaying. -/
theorem isReplay_reload_replay :
    let c := replay (sequence 9) (some (merged (some (sequence 2)) (some (sequence 3)) true false))
      true
    c.wellFormed = true ∧ c.depth ≤ Json.maxNesting ∧
      ∃ d, parse c.text = .ok d ∧ (d == c) = true ∧ isReplay (some d) = true ∧
        ∀ positions, (advanceAll (some d) positions).map (List.map fun r => isReplay (some r)) =
          (advanceAll (some c) positions).map (List.map fun r => isReplay (some r)) := by
  intro c
  have hformed : c.wellFormed = true := rfl
  have hdepth : c.depth ≤ Json.maxNesting := by decide
  obtain ⟨d, hparse, hequal, hreplay, hruns⟩ := isReplay_reload hformed hdepth
  exact ⟨hformed, hdepth, d, hparse, hequal, hreplay.2 rfl, hruns⟩

/-- A merged cursor does not stay replaying. Its lower half is a replay and has moved, which is
forgotten. -/
theorem isReplay_forgotten :
    let m := merged (some (replay (sequence 10) (some (sequence 3)) true)) (some (sequence 5)) false
      false
    let c := merged (some (replay (sequence 10) (some (sequence 4)) true)) (some (sequence 5)) true
      false
    m.advance (sequence 4) = .ok c ∧ c.wellFormed = true ∧ c.depth ≤ Json.maxNesting ∧
      isReplay (some c) = true ∧ ∃ d, parse c.text = .ok d ∧ isReplay (some d) = false := by
  intro m c
  refine ⟨rfl, rfl, by decide, rfl, c.bare, ?_, rfl⟩
  rw [parse_text]
  rfl

end Cursor

end StreamProgress
