import StreamProgress.Proofs.Cursor.IndexTree
import StreamProgress.Proofs.Tracker.Coverage

/-!
# Runs of a tracker

A segment is read entry by entry: `Tracker.advanceAll` threads a list of positions into the cursor
and keeps, of each step, the outcome and the tracker after it.

## The run of a merge

The halves of a merge over indices converge at one step of a run, and it can be told from the
entries alone: the first one beyond every index that some half had reached. Before it the merge is
pending and its floor follows the largest position so far, also where the run goes backwards. After
it the cursor is plain and just follows the entries.

## Main results

* `Tracker.advanceAll_index` — the run of a plain cursor
* `Tracker.advanceAll_mergeTree` — the run of a merge, completed at most once and not too early
-/

namespace StreamProgress

namespace Outcome

variable {c next : Cursor}

theorem ofStep_merged (hnext : next.kind = .merged) :
    ∃ lowerAdvanced upperAdvanced,
      ofStep (some c) next = .merging lowerAdvanced upperAdvanced := by
  cases next with
  | plain p => cases p <;> cases hnext
  | replay reset current replaying => cases hnext
  | merged lower upper lowerAdvanced upperAdvanced => exact ⟨_, _, rfl⟩

theorem ofStep_completed (hc : c.kind = .merged) (i : UInt64) :
    ofStep (some c) (.sequence i) = .mergeCompleted := by
  cases c with
  | plain p => cases p <;> cases hc
  | replay reset current replaying => cases hc
  | merged lower upper lowerAdvanced upperAdvanced => rfl

theorem ofStep_sequence (i j : UInt64) :
    ofStep (some (.sequence i)) (.sequence j) = if j = i then .unchanged else .advanced := by
  have hbeq : (Cursor.sequence i == Cursor.sequence j) = decide (j = i) := by
    rw [Bool.eq_iff_iff, Cursor.beq_iff]
    simp [Cursor.sequence, Cursor.bare, eq_comm]
  rw [Cursor.sequence, Cursor.sequence] at hbeq ⊢
  simp only [ofStep, hbeq, decide_eq_true_eq]
  rfl

end Outcome

namespace Tracker

variable {t t' : Tracker} {c next position : Cursor} {time : UInt64} {outcome : Outcome}

/-- Thread positions into the cursor one after the other, each with the time of its entry. Of every
step there is its outcome and the tracker after it. -/
def advanceAll : Tracker → List (Cursor × UInt64) → Except CursorFault (List (Outcome × Tracker))
  | _, [] => .ok []
  | t, (position, time) :: entries => do
    let step ← t.advance position time
    let steps ← advanceAll step.2 entries
    return step :: steps

theorem advanceAll_cons {step : Outcome × Tracker} {steps : List (Outcome × Tracker)}
    {entries : List (Cursor × UInt64)} (hstep : t.advance position time = .ok step)
    (hsteps : step.2.advanceAll entries = .ok steps) :
    t.advanceAll ((position, time) :: entries) = .ok (step :: steps) := by
  rw [advanceAll, hstep, Except.ok_bind, hsteps]
  rfl

theorem advance_of_cursor (hc : t.cursor = some c) (hnext : c.advance position = .ok next)
    (time : UInt64) :
    ∃ t', t.advance position time = .ok (Outcome.ofStep (some c) next, t') ∧
      t'.cursor = some next := by
  rw [← hc]
  exact ⟨_, advance_eq_ok_iff.2 ⟨next, by rw [hc]; exact hnext, rfl, rfl⟩, rfl⟩

/-- Entries at indices. -/
def atIndices (entries : List (UInt64 × UInt64)) : List (Cursor × UInt64) :=
  entries.map fun e => (.sequence e.1, e.2)

/-! ### The run of a plain cursor -/

/-- A plain cursor is at the last entry, and a step changes it unless the entry is the one
before. -/
theorem advanceAll_index {i : UInt64} (ht : t.cursor = some (.sequence i))
    (entries : List (UInt64 × UInt64)) :
    ∃ steps, t.advanceAll (atIndices entries) = .ok steps ∧ steps.length = entries.length ∧
      ∀ n (hs : n < steps.length) (he : n < entries.length),
        steps[n].2.cursor = some (.sequence entries[n].1) ∧
          steps[n].1 = if some entries[n].1 = (i :: entries.map Prod.fst)[n]? then .unchanged
            else .advanced := by
  induction entries generalizing t i with
  | nil => exact ⟨[], rfl, rfl, nofun⟩
  | cons entry rest ih =>
    have hadvance : (Cursor.sequence i).advance (.sequence entry.1) = .ok (.sequence entry.1) := rfl
    obtain ⟨t', hstep, ht'⟩ := advance_of_cursor ht hadvance entry.2
    obtain ⟨steps, hsteps, hlength, h⟩ := ih ht'
    refine ⟨_, advanceAll_cons hstep hsteps, congrArg (· + 1) hlength, ?_⟩
    intro n hs he
    cases n with
    | zero =>
      refine ⟨ht', ?_⟩
      show Outcome.ofStep (some (.sequence i)) (.sequence entry.1) = _
      rw [Outcome.ofStep_sequence]
      simp
    | succ n => exact h n (Nat.lt_of_succ_lt_succ hs) (Nat.lt_of_succ_lt_succ he)

/-! ### The run of a merge -/

/-- The number of entries before the first one beyond an index. -/
def firstBeyond (top : UInt64) (entries : List (UInt64 × UInt64)) : ℕ :=
  entries.findIdx fun e => top < e.1

/-- The largest index so far: of the first `n` entries, and of the floor they started from. -/
def reached (low : Option UInt64) (entries : List (UInt64 × UInt64)) (n : ℕ) : Option UInt64 :=
  (low.toList ++ (entries.take n).map Prod.fst).max?

/-- What step `n` of a run does to a merge whose largest index is `top` and whose smallest is `low`.
The first entry beyond `top` completes the merge. -/
structure MergeStep (top : UInt64) (low : Option UInt64) (entries : List (UInt64 × UInt64)) (n : ℕ)
    (hn : n < entries.length) (step : Outcome × Tracker) : Prop where
  /-- Until then the cursor stays merged, its largest index is still `top`, and its floor is the
  largest index so far. -/
  pending : n < firstBeyond top entries →
    (∃ lowerAdvanced upperAdvanced, step.1 = .merging lowerAdvanced upperAdvanced) ∧
      ∃ m, step.2.cursor = some m ∧ m.kind = .merged ∧ IsGreatest m.indices top ∧
        m.floor = .ok ((reached low entries (n + 1)).map .sequence)
  completed : n = firstBeyond top entries →
    step.1 = .mergeCompleted ∧ step.2.cursor = some (.sequence entries[n].1)
  /-- From then on the cursor follows the entries. -/
  plain : firstBeyond top entries < n →
    step.1 = (if entries[n].1 = entries[n - 1].1 then .unchanged else .advanced) ∧
      step.2.cursor = some (.sequence entries[n].1)

theorem firstBeyond_cons_of_lt {top : UInt64} {entry : UInt64 × UInt64} (h : top < entry.1)
    (entries : List (UInt64 × UInt64)) : firstBeyond top (entry :: entries) = 0 := by
  simp [firstBeyond, List.findIdx_cons, h]

theorem firstBeyond_cons_of_le {top : UInt64} {entry : UInt64 × UInt64} (h : entry.1 ≤ top)
    (entries : List (UInt64 × UInt64)) :
    firstBeyond top (entry :: entries) = firstBeyond top entries + 1 := by
  simp [firstBeyond, List.findIdx_cons, UInt64.not_lt.2 h]

/-- The first entry raises the floor that a run starts from. -/
theorem reached_cons (low : Option UInt64) (entry : UInt64 × UInt64)
    (entries : List (UInt64 × UInt64)) (n : ℕ) :
    reached low (entry :: entries) (n + 1) =
      reached (some (Cursor.raiseIndex low entry.1)) entries n := by
  cases low <;> rfl

/-- A step of the rest of a run is a step of the run, if the first entry left the merge pending. -/
theorem MergeStep.succ {top : UInt64} {low : Option UInt64} {entry : UInt64 × UInt64}
    {entries : List (UInt64 × UInt64)} {n : ℕ} {hn : n < entries.length}
    {step : Outcome × Tracker} (hle : entry.1 ≤ top)
    (h : MergeStep top (some (Cursor.raiseIndex low entry.1)) entries n hn step) :
    MergeStep top low (entry :: entries) (n + 1) (Nat.succ_lt_succ hn) step := by
  have hfirst := firstBeyond_cons_of_le hle entries
  refine ⟨?_, ?_, ?_⟩
  · intro hlt
    rw [reached_cons]
    exact h.pending (by omega)
  · intro heq
    exact h.completed (by omega)
  · intro hlt
    cases n with
    | zero => omega
    | succ n => exact h.plain (by omega)

theorem advanceAll_pendingMerge {m : Cursor} {top : UInt64} {low : Option UInt64}
    (ht : t.cursor = some m) (hm : m.PendingMerge top low) (entries : List (UInt64 × UInt64)) :
    ∃ steps, t.advanceAll (atIndices entries) = .ok steps ∧ steps.length = entries.length ∧
      ∀ n (hs : n < steps.length) (he : n < entries.length),
        MergeStep top low entries n he steps[n] := by
  induction entries generalizing t m low with
  | nil => exact ⟨[], rfl, rfl, nofun⟩
  | cons entry rest ih =>
    by_cases hle : entry.1 ≤ top
    · -- the merge stays pending, with a raised floor
      obtain ⟨m', hadvance, hm'⟩ := hm.advance_of_le hle
      obtain ⟨t', hstep, ht'⟩ := advance_of_cursor ht hadvance entry.2
      obtain ⟨steps, hsteps, hlength, h⟩ := ih ht' hm'
      refine ⟨_, advanceAll_cons hstep hsteps, congrArg (· + 1) hlength, ?_⟩
      intro n hs he
      have hfirst := firstBeyond_cons_of_le hle rest
      cases n with
      | zero =>
        refine ⟨?_, ?_, ?_⟩
        · intro _
          refine ⟨Outcome.ofStep_merged hm'.merged, m', ht', hm'.merged, hm'.top, ?_⟩
          rw [reached_cons]
          exact hm'.floor
        · intro heq
          omega
        · intro hlt
          omega
      | succ n => exact (h n (Nat.lt_of_succ_lt_succ hs) (Nat.lt_of_succ_lt_succ he)).succ hle
    · -- the merge completes, and the rest is the run of a plain cursor
      have hlt : top < entry.1 := UInt64.not_le.1 hle
      obtain ⟨t', hstep, ht'⟩ := advance_of_cursor ht (hm.advance_of_lt hlt) entry.2
      obtain ⟨steps, hsteps, hlength, h⟩ := advanceAll_index ht' rest
      refine ⟨_, advanceAll_cons hstep hsteps, congrArg (· + 1) hlength, ?_⟩
      intro n hs he
      have hfirst := firstBeyond_cons_of_lt hlt rest
      cases n with
      | zero =>
        refine ⟨?_, ?_, ?_⟩
        · intro hbefore
          omega
        · intro _
          exact ⟨Outcome.ofStep_completed hm.merged entry.1, ht'⟩
        · intro hafter
          omega
      | succ n =>
        obtain ⟨hcursor, houtcome⟩ :=
          h n (Nat.lt_of_succ_lt_succ hs) (Nat.lt_of_succ_lt_succ he)
        refine ⟨?_, ?_, ?_⟩
        · intro hbefore
          omega
        · intro hat
          omega
        · intro _
          have hn : n < (entry :: rest).length := Nat.lt_of_succ_lt he
          have hprevious : (entry.1 :: rest.map Prod.fst)[n]? = some (entry :: rest)[n].1 := by
            rw [← List.map_cons, List.getElem?_map, List.getElem?_eq_getElem hn]
            rfl
          refine ⟨houtcome.trans ?_, hcursor⟩
          simp only [hprevious, Option.some.injEq, Nat.add_sub_cancel, List.getElem_cons_succ]

theorem MergeStep.completed_iff {top : UInt64} {low : Option UInt64}
    {entries : List (UInt64 × UInt64)} {n : ℕ} {hn : n < entries.length}
    {step : Outcome × Tracker} (h : MergeStep top low entries n hn step) :
    step.1 = .mergeCompleted ↔ n = firstBeyond top entries := by
  constructor
  · intro hstep
    obtain hlt | heq | hlt := Nat.lt_trichotomy n (firstBeyond top entries)
    · obtain ⟨⟨_, _, hmerging⟩, -⟩ := h.pending hlt
      rw [hmerging] at hstep
      cases hstep
    · exact heq
    · rw [(h.plain hlt).1] at hstep
      split at hstep <;> cases hstep
  · intro heq
    exact (h.completed heq).1

/-- **A merge completes at the first entry beyond its leaves.** Take a tracker whose cursor is a
merge tree over indices, `top` the largest index at its leaves and `low` the smallest, absent if a
part has not started. Then no step of a run fails. Before the first entry beyond `top` the cursor
stays merged, `top` stays its largest index and its floor is the largest index so far; that entry
completes the merge, and no other one does; after it the cursor follows the entries. -/
theorem advanceAll_mergeTree {m : Cursor} {top : UInt64} {low : Option UInt64}
    (ht : t.cursor = some m) (htree : m.MergeTree .sequence) (hmerged : m.kind = .merged)
    (htop : IsGreatest m.indices top) (hlow : m.IsLowest low)
    (entries : List (UInt64 × UInt64)) :
    ∃ steps, t.advanceAll (atIndices entries) = .ok steps ∧ steps.length = entries.length ∧
      ∀ n (hs : n < steps.length) (he : n < entries.length),
        MergeStep top low entries n he steps[n] ∧
          (steps[n].1 = .mergeCompleted ↔ n = firstBeyond top entries) := by
  have hm : m.PendingMerge top low := ⟨htree, hmerged, htop, Cursor.floor_of_isLowest htree hlow⟩
  obtain ⟨steps, hsteps, hlength, h⟩ := advanceAll_pendingMerge ht hm entries
  refine ⟨steps, hsteps, hlength, ?_⟩
  intro n hs he
  exact ⟨h n hs he, (h n hs he).completed_iff⟩

/-- A half that is merged itself and has a part that has not started, beside a plain half. The run
goes backwards before it completes the merge. -/
theorem advanceAll_mergeTree_backwards :
    ∃ m, m = .merged (some (.merged (some (.sequence 3)) none true false)) (some (.sequence 5))
        false true ∧
      m.MergeTree .sequence ∧ m.kind = .merged ∧ IsGreatest m.indices 5 ∧ m.IsLowest none ∧
        ∃ steps, (start "orders-7" (some m) {}).advanceAll
            (atIndices [(4, 10), (2, 11), (9, 12), (9, 13)]) = .ok steps ∧
          steps.length = 4 ∧ ∀ n (hs : n < steps.length), steps[n].1 = .mergeCompleted ↔ n = 2 := by
  obtain ⟨m, hm⟩ : ∃ m, m = Cursor.merged
      (some (.merged (some (.sequence 3)) none true false)) (some (.sequence 5)) false true :=
    ⟨_, rfl⟩
  have htree : m.MergeTree .sequence := by
    subst hm
    refine .node ?_ ?_
    · rintro _ ⟨⟩
      refine .node ?_ nofun
      rintro _ ⟨⟩
      exact .leaf rfl
    · rintro _ ⟨⟩
      exact .leaf rfl
  have hmerged : m.kind = .merged := by rw [hm]; rfl
  have htop : IsGreatest m.indices 5 := by
    subst hm
    refine ⟨.tail _ (.tail _ (.head _)), ?_⟩
    intro i hi
    have hi : i = 3 ∨ i = 5 := by
      simpa [Cursor.indices, Cursor.leaves, Cursor.leavesOf, Cursor.sequence] using hi
    rcases hi with rfl | rfl
    · decide
    · exact UInt64.le_refl 5
  have hlow : m.IsLowest none := by
    subst hm
    exact .tail _ (.head _)
  refine ⟨m, hm, htree, hmerged, htop, hlow, ?_⟩
  obtain ⟨steps, hsteps, hlength, h⟩ := advanceAll_mergeTree
    (t := start "orders-7" (some m) {}) rfl htree hmerged htop hlow
    [(4, 10), (2, 11), (9, 12), (9, 13)]
  exact ⟨steps, hsteps, hlength, fun n hs => (h n hs (by rw [← hlength]; exact hs)).2⟩

end Tracker

end StreamProgress
