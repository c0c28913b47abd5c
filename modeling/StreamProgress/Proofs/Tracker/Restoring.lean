import StreamProgress.Proofs.Checkpoint
import StreamProgress.Proofs.Cursor.Nesting
import StreamProgress.Proofs.Tracker.Faults

/-!
# Segments that can always be restored

A checkpoint can be taken of any cursor, but one of a cursor that is nested too deep cannot be
restored. So a segment that was restored once and has moved since must not have become too deep.
Advancing and reconciling do not nest a cursor deeper, as long as all positions in it are of one kind
(`Cursor.depth_advance_le`, `Cursor.depth_lowerBound_le`), and the nesting of what was restored is
below the limit since it was read (`Checkpoint.readsHalfFit_restore`). What is carried through the
session is therefore what the cursor is made of and how deep it is, `Cursor.Storable`.

Merging is the one request that can make a cursor deeper, by one bracket each time, and with enough
of it a segment comes to a cursor that cannot be restored.

## Main definitions

* `Cursor.Storable` — an optional cursor of one kind that can be restored
* `Cursor.IsPlain` — what such a segment is advanced to and reconciled with

## Main results

* `Tracker.storable_step` — a request that is no merge keeps the cursor storable
* `Tracker.restore_checkpoint_of_serve` — segments that can always be restored
-/

namespace StreamProgress

namespace Cursor

/-- An optional cursor, made of positions of kind `k` without empty merges, that is not nested too
deep to be read. -/
structure Storable (k : Kind) (half : Option Cursor) : Prop where
  madeOf : ∀ c ∈ half, c.MadeOf fun p => p.kind = k
  depth_le : depthOf half ≤ Json.maxNesting

/-- A plain cursor of kind `k`. -/
def IsPlain (k : Kind) (c : Cursor) : Prop := ∃ p : Position, c = .plain p ∧ p.kind = k

variable {c d : Option Cursor} {k : Kind}

theorem depth_halfToJson (half : Option Cursor) : (halfToJson half).depth = depthOf half := by
  cases half with
  | none => rfl
  | some c => exact depth_toJson c

/-- Cursors that differ in flags only are nested alike. -/
theorem depthOf_congr (h : c.map bare = d.map bare) : depthOf c = depthOf d := by
  obtain ⟨rfl, rfl⟩ | ⟨c, d, rfl, rfl, hcd⟩ := eq_of_map_bare h
  · rfl
  · rw [depthOf, depthOf, ← depth_toJson, ← toJson_bare c, hcd, toJson_bare, depth_toJson]

end Cursor

namespace Tracker

open Cursor (IsPlain Storable)

variable {t : Tracker} {request : Request} {events : List Event} {k : Kind}

/-! ### Restoring -/

/-- A tracker that was restored can be restored, if its positions are of one kind. -/
theorem storable_of_restore {segment : String} {r : Checkpoint} {config : Config}
    (h : restore segment r config = .ok t) (hkind : ∀ c ∈ t.cursor, ∀ p ∈ c.parts, p.kind = k) :
    Storable k t.cursor := by
  obtain ⟨half, hhalf, h⟩ := Except.bind_eq_ok_iff.1 h
  obtain rfl : start segment half config = t := Except.ok.inj h
  have hfits := (Checkpoint.readsHalfFit_restore config.verifyChecksums r).of_eq_ok hhalf
  exact ⟨fun c hc => Cursor.madeOf_iff.2 ⟨(hfits c hc).wellFormed, hkind c hc⟩,
    Cursor.depthOf_le_of_fits hfits⟩

/-- A cursor that can be restored is restored to an equal one, under any configuration. -/
theorem exists_restore_of_storable (h : Storable k t.cursor) (segment : String) (config : Config) :
    ∃ t', restore segment t.checkpoint config = .ok t' ∧ (t'.cursor == t.cursor) = true := by
  have hformed : Cursor.halfWellFormed t.cursor = true :=
    Cursor.halfWellFormed_iff.2 fun c hc => (Cursor.madeOf_iff.1 (h.madeOf c hc)).1
  exact ⟨_, restore_checkpoint segment config h.depth_le hformed, Cursor.bareHalf_beq t.cursor⟩

/-! ### Requests -/

/-- **A request that is no merge does not nest the cursor deeper,** unless it starts the segment. -/
theorem ends_answer_depth (ht : ∀ c ∈ t.cursor, c.MadeOf fun p => p.kind = k)
    (hr : request.Uses (IsPlain k) fun _ => True) (hmerge : ∀ upper, request ≠ .mergeWith upper)
    (time : UInt64) :
    (t.answer time request).Ends (fun _ => True) fun step =>
      Cursor.depthOf step.2.cursor ≤ max 2 (Cursor.depthOf t.cursor) := by
  have hstays := le_max_right 2 (Cursor.depthOf t.cursor)
  cases request with
  | advance position =>
    obtain ⟨x, rfl, hx⟩ := hr
    have hnext : (Cursor.advanceFrom t.cursor (.plain x)).Ends (fun _ => True) fun next =>
        next.depth ≤ max 2 (Cursor.depthOf t.cursor) :=
      Except.ends_true_iff.2 fun next => Cursor.depth_advanceFrom_le ht hx
    have hadvance : (t.advance (.plain x) time).Ends (fun _ => True) fun step =>
        Cursor.depthOf step.2.cursor ≤ max 2 (Cursor.depthOf t.cursor) :=
      hnext.bind fun _ h => h
    exact hadvance.map fun _ h => h
  | mergeWith upper => exact absurd rfl (hmerge upper)
  | reconcile sibling =>
    obtain ⟨x, rfl, -⟩ := hr
    have hreconcile : (t.reconcile (.plain x) time).Ends (fun _ => True) fun t' =>
        Cursor.depthOf t'.cursor ≤ max 2 (Cursor.depthOf t.cursor) := by
      rw [reconcile]
      cases hc : t.cursor with
      | none =>
        rw [Except.ends_ok_iff, hc]
        exact le_max_right 2 _
      | some c =>
        have hlowered : (c.lowerBound (.plain x)).Ends (fun _ => True) fun r => r.depth ≤ c.depth :=
          Except.ends_true_iff.2 fun r => Cursor.depth_lowerBound_le
        exact hlowered.bind fun r h => h.trans (le_max_right 2 c.depth)
    exact hreconcile.map fun _ h => h
  | requiresReplay position => exact (Except.ends_true _).map fun _ _ => hstays
  | lag head => exact (Except.ends_true _).map fun _ _ => hstays
  | mergePosition => exact (Except.ends_true _).map fun _ _ => hstays
  | isMergeInProgress =>
    rw [answer, Except.ends_ok_iff]
    exact hstays
  | checkpoint =>
    rw [answer, Except.ends_ok_iff]
    exact hstays

/-- **A request that is no merge is answered, and its cursor can be restored.** -/
theorem storable_step (ht : Storable k t.cursor) (hr : request.Uses (IsPlain k) fun _ => True)
    (hmerge : ∀ upper, request ≠ .mergeWith upper) (time : UInt64) :
    (∃ answer, (t.step time request).1 = .ok answer) ∧
      Storable k (t.step time request).2.cursor := by
  have huses : request.Uses (IsPlain k) (Cursor.MadeOf fun p => p.kind = k) := by
    cases request with
    | mergeWith upper => exact absurd rfl (hmerge upper)
    | _ => exact hr
  have hdepth := ends_answer_depth ht.madeOf hr hmerge time
  obtain ⟨answered, hanswered, hmade⟩ :=
    (ends_answer (Cursor.setting_ofKind k) ht.madeOf huses time).exists_eq_ok
  rw [step, hanswered]
  refine ⟨⟨_, rfl⟩, hmade, ?_⟩
  exact (hdepth.of_eq_ok hanswered).trans (max_le (by decide) ht.depth_le)

/-! ### Sessions -/

theorem storable_restarted (ht : Storable k t.cursor) (config : Config) :
    Storable k (t.restarted config).cursor :=
  ⟨madeOf_restarted ht.madeOf config,
    (Cursor.depthOf_congr (bare_cursor_restarted t config)).trans_le ht.depth_le⟩

theorem storable_serve (ht : Storable k t.cursor)
    (hevents : ∀ request ∈ requests events, request.Uses (IsPlain k) (fun _ => True) ∧
      ∀ upper, request ≠ .mergeWith upper) :
    ∀ step ∈ serve t events, (∃ answer, step.1 = .ok answer) ∧ Storable k step.2.cursor := by
  induction events generalizing t with
  | nil =>
    rw [serve]
    exact List.forall_mem_nil _
  | cons event events ih =>
    cases event with
    | restart config => exact ih (storable_restarted ht config) hevents
    | request request time =>
      obtain ⟨⟨huses, hmerge⟩, hrest⟩ := List.forall_mem_cons.1 hevents
      have hstep := storable_step ht huses hmerge time
      exact List.forall_mem_cons.2 ⟨hstep, ih hstep.2 hrest⟩

/-- **A segment that was restored can always be restored.** Take a tracker that was restored, from
whatever checkpoint, with an absent cursor or one whose positions, at whatever places in it, are of
one kind. Advance it and reconcile it with plain positions of the kind, ask it anything, and restart
it, in any order. Every request is answered, and the checkpoint that is taken at the start or after
any request is restored, for any segment and under any configuration, to an equal cursor.

Of any tracker, a merge nests the written cursor by one bracket more than the deeper of its halves,
at most. -/
theorem restore_checkpoint_of_serve {segment : String} {r : Checkpoint} {config : Config}
    (hrestore : restore segment r config = .ok t)
    (hkind : ∀ c ∈ t.cursor, ∀ p ∈ c.parts, p.kind = k)
    (hevents : ∀ request ∈ requests events, request.Uses (IsPlain k) (fun _ => True) ∧
      ∀ upper, request ≠ .mergeWith upper) :
    (∀ step ∈ serve t events, ∃ answer, step.1 = .ok answer) ∧
      (∀ u ∈ t :: (serve t events).map Prod.snd, ∀ segment' config',
        ∃ t', restore segment' u.checkpoint config' = .ok t' ∧ (t'.cursor == u.cursor) = true) ∧
        ∀ (u : Tracker) (upper : Option Cursor) (time : UInt64),
          (Cursor.halfToJson (u.mergeWith upper time).cursor).depth ≤
            1 + max (Cursor.halfToJson u.cursor).depth (Cursor.halfToJson upper).depth := by
  have ht := storable_of_restore hrestore hkind
  have hserve := storable_serve ht hevents
  refine ⟨fun step hstep => (hserve step hstep).1, ?_, ?_⟩
  · refine List.forall_mem_cons.2 ⟨exists_restore_of_storable ht, ?_⟩
    intro u hu
    obtain ⟨step, hstep, rfl⟩ := List.mem_map.1 hu
    exact exists_restore_of_storable (hserve step hstep).2
  · intro u upper time
    rw [mergeWith, cursor_change, Cursor.depth_halfToJson, Cursor.depth_halfToJson,
      Cursor.depth_halfToJson]
    exact Cursor.depthOf_merge_le u.cursor upper

/-- The segment was restored with a merged cursor that has one half absent and reads again in the
other. Its first position starts the one half and is the progress of the other, and its last one ends
the merge. -/
theorem restore_checkpoint_of_serve_absent :
    ∃ c t events, c = Cursor.merged none (some (.replay (.sequence 9) none true)) false false ∧
      restore "orders-7" (.of (some c)) {} = .ok t ∧
      events = [.request (.advance (.sequence 4)) 10, .restart {},
        .request (.reconcile (.sequence 3)) 11, .request (.advance (.sequence 12)) 12] ∧
      (∀ step ∈ serve t events, ∃ answer, step.1 = .ok answer) ∧
      (∀ u ∈ t :: (serve t events).map Prod.snd, ∀ segment' config',
        ∃ t', restore segment' u.checkpoint config' = .ok t' ∧ (t'.cursor == u.cursor) = true) ∧
        ∀ (u : Tracker) (upper : Option Cursor) (time : UInt64),
          (Cursor.halfToJson (u.mergeWith upper time).cursor).depth ≤
            1 + max (Cursor.halfToJson u.cursor).depth (Cursor.halfToJson upper).depth := by
  obtain ⟨c, hc⟩ : ∃ c, c = Cursor.merged none (some (.replay (.sequence 9) none true)) false false :=
    ⟨_, rfl⟩
  have hrestore : restore "orders-7" (.of (some c)) {} =
      .ok (start "orders-7" (some c.bare) {}) := by
    rw [restore, Checkpoint.restore_of, hc]
    rfl
  refine ⟨c, _, _, hc, hrestore, rfl, restore_checkpoint_of_serve (k := .sequence) hrestore ?_ ?_⟩
  · rintro _ ⟨⟩
    subst hc
    exact List.forall_mem_singleton.2 rfl
  · simp only [requests, List.forall_mem_cons, Request.Uses]
    refine ⟨⟨⟨_, rfl, rfl⟩, ?_⟩, ⟨⟨_, rfl, rfl⟩, ?_⟩, ⟨⟨_, rfl, rfl⟩, ?_⟩, List.forall_mem_nil _⟩
    all_goals
      rintro _ ⟨⟩

end Tracker

end StreamProgress
