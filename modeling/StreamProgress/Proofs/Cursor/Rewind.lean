import StreamProgress.Proofs.Cursor.Flags
import StreamProgress.Proofs.Cursor.Replay

/-!
# When a merged cursor goes back

A merged cursor leaves a half alone that covers the position already, so that an advance takes no
half back. The test settles positions that are behind a half. Offsets are only partially ordered,
so a position may also be neither behind a half nor ahead of it, and there the halves differ: a
plain half is joined with the position and a merged half asks its own halves, but a replay goes to
the position, and what it had come to beside it is lost.

## Replay halves decide

`Cursor.replays` lists the replays that a merged cursor moves for themselves, at any depth of
merging. As long as each of them covers the position, none of them moves and nothing is lost. Over
plain reset points that is also the only way to keep something that the position does not cover.
Where the positions are indices, or comparable for another reason, one of the two is always the
case, and a merged cursor never goes back.

## Main results

* `Cursor.covers_of_advance_of_kept` — while its replay halves stay, a merged cursor keeps what it
  covers
* `Cursor.advance_merged_keeps` — when a merged cursor keeps what it covers
* `Cursor.advance_merged_rewinds` — a replay half that is taken back
-/

namespace StreamProgress

namespace Cursor

variable {c r : Cursor} {half lower upper : Option Cursor} {lowerAdvanced upperAdvanced : Bool}
  {x y : Position}

mutual

/-- The replays among the halves of a merged cursor, at any depth of merging. -/
def replays : Cursor → List Cursor
  | .plain _ => []
  | .replay reset current replaying => [.replay reset current replaying]
  | .merged lower upper _ _ => replaysOf lower ++ replaysOf upper

/-- The replays among the halves of an optional cursor. -/
def replaysOf : Option Cursor → List Cursor
  | none => []
  | some c => replays c

end

@[simp] theorem replaysOf_none : replaysOf none = [] := rfl

@[simp] theorem replaysOf_some (c : Cursor) : replaysOf (some c) = c.replays := rfl

@[simp] theorem replays_plain (x : Position) : (plain x).replays = [] := rfl

theorem mem_replays_merged {d : Cursor} :
    d ∈ (merged lower upper lowerAdvanced upperAdvanced).replays ↔
      d ∈ replaysOf lower ∨ d ∈ replaysOf upper :=
  List.mem_append

/-! ### Replay halves that stay -/

/-- What a cursor covers its replay halves cover. -/
theorem covers_of_mem_replays (h : c.covers (plain x) = .ok true) :
    ∀ d ∈ c.replays, d.covers (plain x) = .ok true := by
  induction c with
  | plain p => simp
  | replay reset current replaying _ _ =>
    intro d hd
    obtain rfl := List.mem_singleton.1 hd
    exact h
  | merged lower upper lowerAdvanced upperAdvanced ihLower ihUpper =>
    obtain ⟨hl, hu⟩ := covers_merged_eq_ok_true_iff.1 h
    obtain ⟨l, rfl, hl⟩ := halfCovers_eq_ok_true_iff.1 hl
    obtain ⟨u, rfl, hu⟩ := halfCovers_eq_ok_true_iff.1 hu
    intro d hd
    obtain hd | hd := mem_replays_merged.1 hd
    · exact ihLower l rfl hl d hd
    · exact ihUpper u rfl hu d hd

theorem HalfMove.covers_of_kept (h : HalfMove (plain x) half r)
    (hy : halfCovers half (plain y) = .ok true)
    (hkept : ∀ d ∈ replaysOf half, d.covers (plain x) = .ok true)
    (ih : ∀ c ∈ half, c.kind = .merged → c.covers (plain y) = .ok true →
      (∀ d ∈ c.replays, d.covers (plain x) = .ok true) → c.advance (plain x) = .ok r →
        r.covers (plain y) = .ok true) :
    r.covers (plain y) = .ok true := by
  cases h with
  | started => cases hy
  | @joined p _ h =>
    obtain ⟨s, hs, rfl⟩ := upperBound_plain_eq_ok_iff.1 h
    have hyp : y ≤ p := hy
    exact hyp.trans (Position.le_join_left hs)
  | kept => exact hy
  | @moved c _ hwraps hcovers h =>
    cases c with
    | plain p =>
      rw [kind_wraps_plain] at hwraps
      cases hwraps
    | replay reset current replaying =>
      rw [hkept _ (List.mem_singleton_self _)] at hcovers
      cases hcovers
    | merged lower upper lowerAdvanced upperAdvanced => exact ih _ rfl rfl hy hkept h

/-- **While its replay halves stay, a merged cursor keeps what it covers.** -/
theorem covers_of_advance_of_kept (hmerged : c.kind = .merged)
    (hy : c.covers (plain y) = .ok true) (hkept : ∀ d ∈ c.replays, d.covers (plain x) = .ok true)
    (h : c.advance (plain x) = .ok r) : r.covers (plain y) = .ok true := by
  induction c generalizing r with
  | plain p => cases p <;> cases hmerged
  | replay reset current replaying _ _ => cases hmerged
  | merged lower upper lowerAdvanced upperAdvanced ihLower ihUpper =>
    obtain ⟨hly, huy⟩ := covers_merged_eq_ok_true_iff.1 hy
    simp only [mem_replays_merged, or_imp, forall_and] at hkept
    cases advance_merged_eq_ok_iff.1 h with
    | converged hl => exact hl.covers_of_kept hly hkept.1 fun c hc => ihLower c hc
    | pending hl hu =>
      exact covers_merged_eq_ok_true_iff.2
        ⟨hl.covers_of_kept hly hkept.1 fun c hc => ihLower c hc,
          hu.covers_of_kept huy hkept.2 fun c hc => ihUpper c hc⟩

/-! ### Replay halves that move -/

/-- A replay over a plain reset point. -/
def IsPlainReplay (c : Cursor) : Prop := ∃ p current replaying, c = replay (plain p) current replaying

theorem HalfMove.covers_of_mem_replays (h : HalfMove (plain x) half r)
    (hplain : ∀ d ∈ replaysOf half, d.IsPlainReplay) (hr : r.covers (plain y) = .ok true)
    (ih : ∀ c ∈ half, (∀ d ∈ c.replays, d.IsPlainReplay) → c.advance (plain x) = .ok r →
      r.covers (plain y) = .ok true → ∀ d ∈ c.replays, d.covers (plain x) = .ok true) :
    ∀ d ∈ replaysOf half, d.covers (plain x) = .ok true := by
  cases h with
  | started => simp
  | joined => simp
  | kept _ hcovers => exact Cursor.covers_of_mem_replays hcovers
  | moved _ _ h => exact ih _ rfl hplain h hr

/-- A replay half that moves over a plain reset point loses whatever the position does not cover. So
if something of that kind is still covered, no replay half has moved. -/
theorem covers_of_mem_replays_of_advance (hplain : ∀ d ∈ c.replays, d.IsPlainReplay)
    (hyx : ¬y ≤ x) (h : c.advance (plain x) = .ok r) (hr : r.covers (plain y) = .ok true) :
    ∀ d ∈ c.replays, d.covers (plain x) = .ok true := by
  induction c generalizing r with
  | plain p => simp
  | replay reset current replaying _ _ =>
    obtain ⟨p, current, replaying, ⟨⟩⟩ := hplain _ (List.mem_singleton_self _)
    rw [covers_of_advance_replay_plain h] at hr
    exact absurd hr hyx
  | merged lower upper lowerAdvanced upperAdvanced ihLower ihUpper =>
    simp only [mem_replays_merged, or_imp, forall_and] at hplain ⊢
    cases advance_merged_eq_ok_iff.1 h with
    | @converged l u hl hu _ _ heq =>
      -- equal halves cover the same, so the upper half has kept it as well
      have hru : u.covers (plain y) = .ok true := by
        rw [← covers_bare, ← beq_iff.1 heq, covers_bare]
        exact hr
      exact ⟨hl.covers_of_mem_replays hplain.1 hr fun c hc => ihLower c hc,
        hu.covers_of_mem_replays hplain.2 hru fun c hc => ihUpper c hc⟩
    | pending hl hu =>
      obtain ⟨hrl, hru⟩ := covers_merged_eq_ok_true_iff.1 hr
      exact ⟨hl.covers_of_mem_replays hplain.1 hrl fun c hc => ihLower c hc,
        hu.covers_of_mem_replays hplain.2 hru fun c hc => ihUpper c hc⟩

/-! ### What a merged cursor keeps -/

/-- **A merged cursor goes back with a replay half only.** What it covers is covered after an
advance if it is comparable with the position, as indices always are, or if all of its replay halves
cover the position. Over plain reset points there is no other way to keep it. -/
theorem advance_merged_keeps
    (hy : (merged lower upper lowerAdvanced upperAdvanced).covers (plain y) = .ok true)
    (h : (merged lower upper lowerAdvanced upperAdvanced).advance (plain x) = .ok r) :
    (x ≤ y ∨ y ≤ x → r.covers (plain y) = .ok true) ∧
      ((∀ d ∈ (merged lower upper lowerAdvanced upperAdvanced).replays,
        d.covers (plain x) = .ok true) → r.covers (plain y) = .ok true) ∧
        ((∀ d ∈ (merged lower upper lowerAdvanced upperAdvanced).replays, d.IsPlainReplay) →
          (r.covers (plain y) = .ok true ↔
            y ≤ x ∨ ∀ d ∈ (merged lower upper lowerAdvanced upperAdvanced).replays,
              d.covers (plain x) = .ok true)) := by
  have hback : y ≤ x → r.covers (plain y) = .ok true := covers_of_le (covers_of_advance h)
  have hkept := fun hkept => covers_of_advance_of_kept (y := y) rfl hy hkept h
  refine ⟨?_, hkept, fun hplain => ⟨?_, ?_⟩⟩
  · rintro (hxy | hyx)
    · exact hkept (covers_of_mem_replays (covers_of_le hy hxy))
    · exact hback hyx
  · intro hr
    by_cases hyx : y ≤ x
    · exact .inl hyx
    · exact .inr (covers_of_mem_replays_of_advance hplain hyx h hr)
  · rintro (hyx | hcovers)
    · exact hback hyx
    · exact hkept hcovers

/-- The replay half covers a position that is beside what the plain half has come to: it stays, the
plain half is joined, and nothing is lost. -/
theorem advance_merged_keeps_partitions :
    ∃ m r x y, m = merged
        (some (replay (plain (.partitions (.ofPairs [("a", 3), ("b", 3)])))
          (some (plain (.partitions (.ofPairs [("a", 2), ("b", 2)])))) true))
        (some (plain (.partitions (.ofPairs [("a", 1)])))) false false ∧
      x = .partitions (.ofPairs [("b", 1)]) ∧ y = .partitions (.ofPairs [("a", 1)]) ∧
        m.covers (plain y) = .ok true ∧ m.advance (plain x) = .ok r ∧
          r.covers (plain y) = .ok true := by
  have hy : (merged
      (some (replay (plain (.partitions (.ofPairs [("a", 3), ("b", 3)])))
        (some (plain (.partitions (.ofPairs [("a", 2), ("b", 2)])))) true))
      (some (plain (.partitions (.ofPairs [("a", 1)])))) false false).covers
        (plain (.partitions (.ofPairs [("a", 1)]))) = .ok true := rfl
  refine ⟨_, _, _, _, rfl, rfl, rfl, hy, rfl, ?_⟩
  refine (advance_merged_keeps (x := .partitions (.ofPairs [("b", 1)])) hy rfl).2.1 ?_
  intro d hd
  obtain rfl := List.mem_singleton.1 hd
  rfl

/-- A replay half is taken back. It had come to partition `a`, the position is one of partition `b`
that had been read before the reset as well, and afterwards the merged cursor covers partition `a`
no more. -/
theorem advance_merged_rewinds :
    ∃ m r x y, m = merged
        (some (replay (plain (.partitions (.ofPairs [("a", 1), ("b", 1)])))
          (some (plain (.partitions (.ofPairs [("a", 1)])))) true))
        (some (plain (.partitions (.ofPairs [("a", 1)])))) false false ∧
      x = .partitions (.ofPairs [("b", 1)]) ∧ y = .partitions (.ofPairs [("a", 1)]) ∧
        m.covers (plain y) = .ok true ∧ m.advance (plain x) = .ok r ∧
          r.covers (plain y) = .ok false :=
  ⟨_, _, _, _, rfl, rfl, rfl, rfl, rfl, rfl⟩

end Cursor

end StreamProgress
