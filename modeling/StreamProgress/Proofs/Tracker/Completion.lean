import StreamProgress.Proofs.Cursor.Raising
import StreamProgress.Proofs.Cursor.Rewind
import StreamProgress.Proofs.Tracker.Coverage

/-!
# When a merge is reported as completed

A merge is complete when both halves have converged, and then the cursor covers the position at which
the merge was to complete, the ceiling of the merged cursor. The outcome of a step is not taken from
the convergence, though. `Outcome.ofStep` looks for a merged cursor on the way of the progress before
the step and after it, and takes its absence for completion.

## Two ways to lose a merged cursor

A merged cursor that is advanced goes away by convergence only. Its plain halves are joined with the
position then, and lose nothing. A replay half goes to the position, and what it had come to beside
the position is lost; where no replay half has anything beyond the position, nothing is
(`Cursor.covers_leaf_of_converged`).

A merged cursor that stands in the progress of a replay goes away with any step. A replay over a plain
reset point is wherever its last position was, and what it had come to before does not matter. Nothing
has converged then, and the cursor covers the ceiling only if the position does.

## Main results

* `Outcome.ofStep_eq_mergeCompleted_iff` — what is reported as a completed merge
* `Tracker.covers_of_mergeCompleted` — when a completed merge has really converged
* `Tracker.mergeCompleted_early` — a merge in the progress of a replay, reported before it converged
-/

namespace StreamProgress

namespace Cursor

variable {c m r : Cursor} {half lower upper : Option Cursor} {q x top : Position}

/-! ### The merged cursor in a cursor -/

/-- The way to the merged cursor in a cursor keeps the ceiling. -/
theorem ceiling_of_unwrap_merged (h : unwrap .merged c = some m) : m.ceiling = c.ceiling := by
  induction c with
  | plain p => cases p <;> cases h
  | replay reset current replaying _ ih =>
    cases current with
    | none => cases h
    | some d => exact ih d rfl h
  | merged lower upper lowerAdvanced upperAdvanced _ _ =>
    obtain rfl := Option.some.inj h
    rfl

theorem kind_ne_merged_of_not_inProgress (h : isMergeInProgress (some c) = false) :
    c.kind ≠ .merged := by
  cases c with
  | plain p => cases p <;> nofun
  | replay reset current replaying => nofun
  | merged lower upper lowerAdvanced upperAdvanced => cases h

/-- What covers all leaves of a cursor covers its ceiling. -/
theorem covers_ceiling_of_covers_leaves (htop : c.ceiling = .ok (some top))
    (h : ∀ q, some q ∈ c.leaves → r.covers (plain q) = .ok true) :
    r.covers (plain top) = .ok true := by
  have hleaves := (ceiling_le_iff htop).1 le_rfl
  obtain ⟨leaf, hleaf⟩ := exists_mem_leaves c
  obtain ⟨q, rfl, -⟩ := hleaves leaf hleaf
  obtain ⟨low, hlow, -⟩ := exists_floor_of_covers (h q hleaf)
  refine covers_eq_ok_true_iff.2 ⟨low, hlow, (ceiling_le_iff htop).2 ?_⟩
  intro leaf hleaf
  obtain ⟨q, rfl, -⟩ := hleaves leaf hleaf
  obtain ⟨low', hlow', hq⟩ := exists_floor_of_covers (h q hleaf)
  obtain rfl : low = low' := Option.some.inj (Except.ok.inj (hlow.symm.trans hlow'))
  exact ⟨q, rfl, hq⟩

/-! ### Halves that converge -/

/-- Every replay half of a cursor that `x` moves is moved forward: it has come to nothing beyond
`x`. -/
def MovesForward (x : Position) (replays : List Cursor) : Prop :=
  ∀ d ∈ replays, d.covers (plain x) = .ok true ∨ ∀ q, some q ∈ d.leaves → q ≤ x

theorem MovesForward.append {ds es : List Cursor} :
    MovesForward x (ds ++ es) ↔ MovesForward x ds ∧ MovesForward x es :=
  List.forall_mem_append

theorem HalfMove.covers_leaf (h : HalfMove (plain x) half r) (hmoved : (half != some r) = true)
    (hforward : MovesForward x (replaysOf half)) (hq : some q ∈ leavesOf half)
    (ih : ∀ c ∈ half, c.kind = .merged → MovesForward x c.replays → c.advance (plain x) = .ok r →
      some q ∈ c.leaves → r.covers (plain q) = .ok true) :
    r.covers (plain q) = .ok true := by
  cases h with
  | started => simp at hq
  | @joined p _ h =>
    obtain rfl : q = p := Option.some.inj (List.mem_singleton.1 hq)
    obtain ⟨s, hs, rfl⟩ := upperBound_plain_eq_ok_iff.1 h
    exact Position.le_join_left hs
  | kept =>
    rw [bne_half_self] at hmoved
    cases hmoved
  | @moved c _ hwraps hcovers h =>
    cases c with
    | plain p =>
      rw [kind_wraps_plain] at hwraps
      cases hwraps
    | replay reset current replaying =>
      obtain hcovered | hbelow := hforward _ (List.mem_singleton_self _)
      · rw [hcovered] at hcovers
        cases hcovers
      · exact covers_of_le (covers_of_advance h) (hbelow q hq)
    | merged lower upper lowerAdvanced upperAdvanced => exact ih _ rfl rfl hforward h hq

/-- **Halves that converge lose nothing,** if no replay half is taken back. -/
theorem covers_leaf_of_converged (hmerged : c.kind = .merged) (hforward : MovesForward x c.replays)
    (h : c.advance (plain x) = .ok r) (hover : r.kind ≠ .merged) (hq : some q ∈ c.leaves) :
    r.covers (plain q) = .ok true := by
  induction c generalizing r with
  | plain p => cases p <;> cases hmerged
  | replay reset current replaying _ _ => cases hmerged
  | merged lower upper lowerAdvanced upperAdvanced ihLower ihUpper =>
    obtain ⟨hforwardLower, hforwardUpper⟩ := MovesForward.append.1 hforward
    cases advance_merged_eq_ok_iff.1 h with
    | pending => exact absurd rfl hover
    | @converged l u hl hu hlower hupper heq =>
      obtain hq | hq := mem_leaves_merged.1 hq
      · exact hl.covers_leaf hlower hforwardLower hq fun c hc hkind hforward hadvance =>
          ihLower c hc hkind hforward hadvance hover
      · have hover : u.kind ≠ .merged := kind_eq_of_beq heq ▸ hover
        rw [covers_eq_of_beq heq]
        exact hu.covers_leaf hupper hforwardUpper hq fun c hc hkind hforward hadvance =>
          ihUpper c hc hkind hforward hadvance hover

theorem HalfMove.replaysOf_eq_nil (h : HalfMove (plain x) half r)
    (hmoved : (half != some r) = true)
    (hkept : ∀ d ∈ replaysOf half, d.covers (plain x) = .ok true)
    (ih : ∀ c ∈ half, c.kind = .merged → (∀ d ∈ c.replays, d.covers (plain x) = .ok true) →
      c.advance (plain x) = .ok r → c.replays = []) :
    replaysOf half = [] := by
  cases h with
  | started => rfl
  | joined => rfl
  | kept =>
    rw [bne_half_self] at hmoved
    cases hmoved
  | @moved c _ hwraps hcovers h =>
    cases c with
    | plain p => rfl
    | replay reset current replaying =>
      rw [hkept _ (List.mem_singleton_self _)] at hcovers
      cases hcovers
    | merged lower upper lowerAdvanced upperAdvanced => exact ih _ rfl rfl hkept h

/-- Halves converge by moving, so replay halves that stay keep them from it. -/
theorem replays_eq_nil_of_converged (hmerged : c.kind = .merged)
    (hkept : ∀ d ∈ c.replays, d.covers (plain x) = .ok true) (h : c.advance (plain x) = .ok r)
    (hover : r.kind ≠ .merged) : c.replays = [] := by
  induction c generalizing r with
  | plain p => cases p <;> cases hmerged
  | replay reset current replaying _ _ => cases hmerged
  | merged lower upper lowerAdvanced upperAdvanced ihLower ihUpper =>
    simp only [mem_replays_merged, or_imp, forall_and] at hkept
    cases advance_merged_eq_ok_iff.1 h with
    | pending => exact absurd rfl hover
    | @converged l u hl hu hlower hupper heq =>
      have hoverUpper : u.kind ≠ .merged := kind_eq_of_beq heq ▸ hover
      have hnilLower := hl.replaysOf_eq_nil hlower hkept.1 fun c hc hkind hkept hadvance =>
        ihLower c hc hkind hkept hadvance hover
      have hnilUpper := hu.replaysOf_eq_nil hupper hkept.2 fun c hc hkind hkept hadvance =>
        ihUpper c hc hkind hkept hadvance hoverUpper
      rw [replays, hnilLower, hnilUpper]
      rfl

end Cursor

namespace Outcome

/-- **A merge is reported as completed iff a merged cursor was found before the step and none after
it,** whatever the step has done to it. -/
theorem ofStep_eq_mergeCompleted_iff {before : Option Cursor} {after : Cursor} :
    ofStep before after = .mergeCompleted ↔
      Cursor.isMergeInProgress before = true ∧ Cursor.isMergeInProgress (some after) = false := by
  cases before with
  | none => simp [ofStep, Cursor.isMergeInProgress, Cursor.unwrapHalf]
  | some c =>
    cases after with
    | merged lower upper lowerAdvanced upperAdvanced =>
      simp [ofStep, Cursor.isMergeInProgress, Cursor.unwrapHalf, Cursor.unwrap]
    | plain p =>
      simp only [ofStep]
      split
      · rename_i h
        simpa using h
      · rename_i h
        split <;> simpa using h
    | replay reset current replaying =>
      simp only [ofStep]
      split
      · rename_i h
        simpa using h
      · rename_i h
        split <;> simpa using h

end Outcome

namespace Tracker

variable {t t' : Tracker} {m : Cursor} {top x : Position} {time : UInt64}

/-- **A completed merge covers the position at which it was to complete,** as far as no replay was
taken back. Take a tracker in whose cursor there is a merged cursor with a ceiling, and let an advance
report that the merge is completed. Then the cursor covers the ceiling

* if the position does;
* if the cursor itself was merged, and none of its replay halves that moved had come to anything
  beyond the position. So a merge without replay halves is never reported too early.

Over plain reset points the cursor covers the ceiling in these two cases only: if the position does, or
if the merge has no replay halves and stands in no replay. -/
theorem covers_of_mergeCompleted (hfound : Cursor.unwrapHalf .merged t.cursor = some m)
    (htop : m.ceiling = .ok (some top))
    (h : t.advance (.plain x) time = .ok (.mergeCompleted, t')) :
    (top ≤ x → Cursor.halfCovers t'.cursor (.plain top) = .ok true) ∧
      ((∀ c ∈ t.cursor, c.kind = .merged ∧ Cursor.MovesForward x c.replays) →
        Cursor.halfCovers t'.cursor (.plain top) = .ok true) ∧
        ((∀ c ∈ t.cursor, ∀ d ∈ c.replays, d.IsPlainReplay) →
          (Cursor.halfCovers t'.cursor (.plain top) = .ok true ↔
            top ≤ x ∨ ∀ c ∈ t.cursor, c.replays = [])) := by
  obtain ⟨next, hnext, houtcome, rfl⟩ := advance_eq_ok_iff.1 h
  have hover := Cursor.kind_ne_merged_of_not_inProgress
    (Outcome.ofStep_eq_mergeCompleted_iff.1 houtcome.symm).2
  obtain ⟨c, hc⟩ : ∃ c, t.cursor = some c := by
    cases hc : t.cursor with
    | none =>
      rw [hc] at hfound
      cases hfound
    | some c => exact ⟨c, rfl⟩
  rw [hc] at hfound hnext
  simp only [hc, Option.mem_def, Option.some.injEq, forall_eq', cursor_change, Cursor.halfCovers]
  have hadvance : c.advance (.plain x) = .ok next := hnext
  have htop : c.ceiling = .ok (some top) := Cursor.ceiling_of_unwrap_merged hfound ▸ htop
  have hbelow : top ≤ x → next.covers (.plain top) = .ok true :=
    Cursor.covers_of_le (Cursor.covers_of_advance hadvance)
  have hforward : c.kind = .merged ∧ Cursor.MovesForward x c.replays →
      next.covers (.plain top) = .ok true := by
    rintro ⟨hmerged, hforward⟩
    exact Cursor.covers_ceiling_of_covers_leaves htop fun q hq =>
      Cursor.covers_leaf_of_converged hmerged hforward hadvance hover hq
  refine ⟨hbelow, hforward, ?_⟩
  cases c with
  | plain p => cases p <;> cases hfound
  | replay reset current replaying =>
    intro hplain
    obtain ⟨p, current, replaying, ⟨⟩⟩ := hplain _ (List.mem_singleton_self _)
    rw [Cursor.covers_of_advance_replay_plain hadvance]
    exact ⟨.inl, fun h => h.resolve_right (List.cons_ne_nil _ _)⟩
  | merged lower upper lowerAdvanced upperAdvanced =>
    refine fun hplain => ⟨fun hcovers => ?_, fun h => h.elim hbelow ?_⟩
    · by_cases hle : top ≤ x
      · exact .inl hle
      · exact .inr (Cursor.replays_eq_nil_of_converged rfl
          (Cursor.covers_of_mem_replays_of_advance hplain hle hadvance hcovers) hadvance hover)
    · intro hnil
      refine hforward ⟨rfl, ?_⟩
      rw [hnil]
      exact List.forall_mem_nil _

/-- The halves agree on partition `c` and differ in partition `a`. The position is one of partition `a`
alone. It covers nothing of partition `c`, and yet nothing of it is lost when the halves converge. -/
theorem covers_of_mergeCompleted_partitions :
    ∃ c t', c = Cursor.merged (some (.partitions (.ofPairs [("a", 1), ("c", 5)])))
        (some (.partitions (.ofPairs [("a", 2), ("c", 5)]))) true false ∧
      Cursor.unwrapHalf .merged (some c) = some c ∧
      c.ceiling = .ok (some (.partitions (.ofPairs [("a", 2), ("c", 5)]))) ∧
      (start "orders-7" (some c) {}).advance (.partitions (.ofPairs [("a", 3)])) 10 =
        .ok (.mergeCompleted, t') ∧
      Cursor.halfCovers t'.cursor (.partitions (.ofPairs [("a", 2), ("c", 5)])) = .ok true := by
  obtain ⟨c, hc⟩ : ∃ c, c = Cursor.merged (some (.partitions (.ofPairs [("a", 1), ("c", 5)])))
      (some (.partitions (.ofPairs [("a", 2), ("c", 5)]))) true false := ⟨_, rfl⟩
  have hfound : Cursor.unwrapHalf .merged (some c) = some c := by
    subst hc
    rfl
  have htop : c.ceiling = .ok (some (.partitions (.ofPairs [("a", 2), ("c", 5)]))) := by
    subst hc
    rfl
  obtain ⟨t', ht'⟩ : ∃ t', (start "orders-7" (some c) {}).advance
      (.partitions (.ofPairs [("a", 3)])) 10 = .ok (.mergeCompleted, t') := by
    subst hc
    exact ⟨_, rfl⟩
  refine ⟨c, t', hc, hfound, htop, ht', ?_⟩
  refine (covers_of_mergeCompleted (t := start "orders-7" (some c) {}) hfound htop ht').2.1 ?_
  rintro _ ⟨⟩
  subst hc
  exact ⟨rfl, List.forall_mem_nil _⟩

/-- A merge that stands in the progress of a replay is reported as completed too early. Its halves are
at 3 and 5, and the replay reads entry 4 again, which it may. The merged cursor is forgotten, and the
cursor does not cover 5. -/
theorem mergeCompleted_early :
    ∃ c t', c = Cursor.replay (.sequence 10)
        (some (.merged (some (.sequence 3)) (some (.sequence 5)) false false)) true ∧
      Cursor.unwrapHalf .merged (some c) =
        some (.merged (some (.sequence 3)) (some (.sequence 5)) false false) ∧
      (Cursor.merged (some (.sequence 3)) (some (.sequence 5)) false false).ceiling =
        .ok (some (.sequence 5)) ∧
      (start "orders-7" (some c) {}).advance (.sequence 4) 10 = .ok (.mergeCompleted, t') ∧
        Cursor.halfCovers t'.cursor (.sequence 5) = .ok false :=
  ⟨_, _, rfl, rfl, rfl, rfl, rfl⟩

end Tracker

end StreamProgress
