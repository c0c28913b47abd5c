import Mathlib.Data.List.Forall2
import StreamProgress.Proofs.Cursor.ReadBack
import StreamProgress.Proofs.Tracker.Coverage

/-!
# Sessions of a tracker

A session is what happens to a tracker one after the other: requests, each with its time, and
restarts, at which the tracker is replaced by one that is restored from its checkpoint, perhaps with
another configuration. A request that fails leaves the tracker what it was, and so does a restart
whose checkpoint cannot be read back.

## Restarts do not show

A restart forgets the flags of the cursor and the whole journal, and it may change the
configuration. None of this shows in an answer: `Tracker.serve_sameStep` compares two sessions with
the same requests whose trackers have equal cursors, and asks nothing about times, configurations,
journals, or where the restarts are. The step is `Tracker.answer_congr`, one operation after the
other; the session is an induction on both lists of events at once.

## Main definitions

* `Tracker.answer` — the answer to a request
* `Tracker.serve` — the steps of a session, each with its answer or fault and the tracker after it

## Main results

* `Tracker.restore_checkpoint` — a restored tracker has an equal cursor
* `Tracker.serve_sameStep` — restarts do not show
-/

namespace StreamProgress

namespace Tracker

/-- What can be asked of a tracker, with its arguments. -/
inductive Request where
  | advance (position : Cursor)
  | mergeWith (upper : Option Cursor)
  | reconcile (sibling : Cursor)
  | requiresReplay (position : Cursor)
  | lag (head : UInt64)
  | mergePosition
  | isMergeInProgress
  | checkpoint

/-- What a tracker answers. -/
inductive Answer where
  | done
  | outcome (outcome : Outcome)
  | holds (b : Bool)
  | number (n : Option UInt64)
  | stored (checkpoint : Checkpoint)

/-- The answer to a request at a time, and the tracker after it. -/
def answer (t : Tracker) (time : UInt64) : Request → Except CursorFault (Answer × Tracker)
  | .advance position => (t.advance position time).map fun step => (.outcome step.1, step.2)
  | .mergeWith upper => .ok (.done, t.mergeWith upper time)
  | .reconcile sibling => (t.reconcile sibling time).map fun t' => (.done, t')
  | .requiresReplay position => (t.requiresReplay position).map fun b => (.holds b, t)
  | .lag head => (t.lag head).map fun n => (.number n, t)
  | .mergePosition => t.mergePosition.map fun n => (.number n, t)
  | .isMergeInProgress => .ok (.holds t.isMergeInProgress, t)
  | .checkpoint => .ok (.stored t.checkpoint, t)

/-- What a request does: the answer or the fault, and the tracker after it. A request that fails
leaves the tracker what it was. -/
def step (t : Tracker) (time : UInt64) (request : Request) : Except CursorFault Answer × Tracker :=
  match t.answer time request with
  | .ok (a, t') => (.ok a, t')
  | .error fault => (.error fault, t)

/-- What happens to a tracker. -/
inductive Event where
  | request (request : Request) (time : UInt64)
  /-- The tracker is restored from its checkpoint. -/
  | restart (config : Config)

/-- The tracker that goes on after a restart. -/
def restarted (t : Tracker) (config : Config) : Tracker :=
  match restore t.segment t.checkpoint config with
  | .ok t' => t'
  | .error _ => t

/-- The steps of a session, one for each of its requests. -/
def serve : Tracker → List Event → List (Except CursorFault Answer × Tracker)
  | _, [] => []
  | t, .restart config :: events => serve (t.restarted config) events
  | t, .request request time :: events =>
    t.step time request :: serve (t.step time request).2 events

/-- The requests of a session. -/
def requests : List Event → List Request
  | [] => []
  | .restart _ :: events => requests events
  | .request request _ :: events => request :: requests events

variable {t u : Tracker} {c d : Option Cursor}

/-! ### Restarts -/

/-- **A restored tracker has an equal cursor.** The brackets of its written form must not be nested
too deep, and no merge in it may be empty. -/
theorem restore_checkpoint (segment : String) (config : Config)
    (hdepth : Cursor.depthOf t.cursor ≤ Json.maxNesting)
    (hformed : Cursor.halfWellFormed t.cursor = true) :
    restore segment t.checkpoint config =
      .ok (start segment (Cursor.bareHalf t.cursor) config) := by
  rw [restore, checkpoint, Checkpoint.restore_of, if_neg (Nat.not_lt.2 hdepth), if_pos hformed]
  rfl

/-- A restart keeps the cursor up to its flags, also where the checkpoint cannot be read back. -/
theorem bare_cursor_restarted (t : Tracker) (config : Config) :
    (t.restarted config).cursor.map Cursor.bare = t.cursor.map Cursor.bare := by
  rw [restarted]
  by_cases hdepth : Cursor.depthOf t.cursor ≤ Json.maxNesting
  · by_cases hformed : Cursor.halfWellFormed t.cursor = true
    · rw [restore_checkpoint t.segment config hdepth hformed]
      exact Cursor.map_bare_bareHalf t.cursor
    · rw [restore, checkpoint, Checkpoint.restore_of, if_neg (Nat.not_lt.2 hdepth), if_neg hformed]
      rfl
  · rw [restore, checkpoint, Checkpoint.restore_of, if_pos (Nat.not_le.1 hdepth)]
    rfl

/-! ### Questions -/

theorem unwrapHalf_merged_congr (h : c.map Cursor.bare = d.map Cursor.bare) :
    (Cursor.unwrapHalf .merged c).map Cursor.bare =
      (Cursor.unwrapHalf .merged d).map Cursor.bare := by
  obtain ⟨rfl, rfl⟩ | ⟨c, d, rfl, rfl, hcd⟩ := Cursor.eq_of_map_bare h
  · rfl
  · rw [Cursor.unwrapHalf, Cursor.unwrapHalf, ← Cursor.unwrap_merged_bare, hcd,
      Cursor.unwrap_merged_bare]

theorem isMergeInProgress_congr (h : c.map Cursor.bare = d.map Cursor.bare) :
    Cursor.isMergeInProgress c = Cursor.isMergeInProgress d := by
  have hmap := congrArg Option.isSome (unwrapHalf_merged_congr h)
  rwa [Option.isSome_map, Option.isSome_map] at hmap

theorem mergePosition_congr (h : c.map Cursor.bare = d.map Cursor.bare) :
    Cursor.mergePosition c = Cursor.mergePosition d := by
  rw [Cursor.mergePosition, Cursor.mergePosition]
  obtain ⟨hc, hd⟩ | ⟨c, d, hc, hd, hcd⟩ := Cursor.eq_of_map_bare (unwrapHalf_merged_congr h)
  · rw [hc, hd]
  · rw [hc, hd]
    simp only [← Cursor.ceiling_bare c, hcd, Cursor.ceiling_bare]

theorem requiresReplay_congr (h : t.cursor.map Cursor.bare = u.cursor.map Cursor.bare)
    (position : Cursor) : t.requiresReplay position = u.requiresReplay position := by
  rw [requiresReplay, requiresReplay]
  obtain ⟨ht, hu⟩ | ⟨c, d, ht, hu, hcd⟩ := Cursor.eq_of_map_bare h
  · rw [ht, hu]
  · rw [ht, hu, Cursor.halfCovers, Cursor.halfCovers, ← Cursor.covers_bare c, hcd,
      Cursor.covers_bare]

theorem lag_congr (h : t.cursor.map Cursor.bare = u.cursor.map Cursor.bare) (head : UInt64) :
    t.lag head = u.lag head := by
  rw [lag, lag]
  obtain ⟨ht, hu⟩ | ⟨c, d, ht, hu, hcd⟩ := Cursor.eq_of_map_bare h
  · rw [ht, hu]
  · rw [ht, hu, Cursor.floorOf_some, Cursor.floorOf_some, Cursor.floor_eq_of_beq
      (Cursor.beq_iff.2 hcd)]

/-- Equal cursors are stored alike, byte for byte. -/
theorem checkpoint_congr (h : t.cursor.map Cursor.bare = u.cursor.map Cursor.bare) :
    t.checkpoint = u.checkpoint := by
  rw [checkpoint, checkpoint]
  obtain ⟨ht, hu⟩ | ⟨c, d, ht, hu, hcd⟩ := Cursor.eq_of_map_bare h
  · rw [ht, hu]
  · have hkind : c.kind = d.kind := Cursor.kind_eq_of_beq (Cursor.beq_iff.2 hcd)
    have hjson : c.toJson = d.toJson := by rw [← Cursor.toJson_bare c, hcd, Cursor.toJson_bare]
    rw [ht, hu, Checkpoint.of, Checkpoint.of, Cursor.halfToJson, Cursor.halfToJson, hjson,
      Option.map_some, Option.map_some, hkind]

/-! ### Changes -/

/-- Outcomes do not look at old flags. -/
theorem ofStep_congr {next next' : Cursor} (h : c.map Cursor.bare = d.map Cursor.bare)
    (hnext : next.shown = next'.shown) : Outcome.ofStep c next = Outcome.ofStep d next' := by
  obtain ⟨hbare, hflags⟩ := Cursor.shown_eq_iff.1 hnext
  have hc := isMergeInProgress_congr h
  obtain ⟨rfl, rfl⟩ | ⟨c, d, rfl, rfl, hcd⟩ := Cursor.eq_of_map_bare h
  · rfl
  · have hn : Cursor.isMergeInProgress (some next) = Cursor.isMergeInProgress (some next') := by
      refine isMergeInProgress_congr ?_
      rw [Option.map_some, Option.map_some, hbare]
    have hbeq := Cursor.beq_congr hcd hbare
    cases next with
    | merged lower upper lowerAdvanced upperAdvanced =>
      cases next' with
      | merged lower' upper' lowerAdvanced' upperAdvanced' =>
        obtain ⟨rfl, rfl⟩ := Prod.mk.inj (Option.some.inj hflags)
        rfl
      | plain p => cases hflags
      | replay reset current replaying => cases hflags
    | plain p =>
      cases next' with
      | merged lower upper lowerAdvanced upperAdvanced => cases hflags
      | plain q => simp only [Outcome.ofStep, hc, hn, hbeq]
      | replay reset current replaying => simp only [Outcome.ofStep, hc, hn, hbeq]
    | replay reset current replaying =>
      cases next' with
      | merged lower upper lowerAdvanced upperAdvanced => cases hflags
      | plain q => simp only [Outcome.ofStep, hc, hn, hbeq]
      | replay reset' current' replaying' => simp only [Outcome.ofStep, hc, hn, hbeq]

theorem advance_congr (h : t.cursor.map Cursor.bare = u.cursor.map Cursor.bare) (position : Cursor)
    (time time' : UInt64) :
    ((t.advance position time).map fun step => (step.1, step.2.cursor.map Cursor.bare)) =
      (u.advance position time').map fun step => (step.1, step.2.cursor.map Cursor.bare) := by
  have hnext : (Cursor.advanceFrom t.cursor position).map Cursor.shown =
      (Cursor.advanceFrom u.cursor position).map Cursor.shown := by
    obtain ⟨ht, hu⟩ | ⟨c, d, ht, hu, hcd⟩ := Cursor.eq_of_map_bare h
    · rw [ht, hu]
    · rw [ht, hu, Cursor.advanceFrom, Cursor.advanceFrom, ← Cursor.advance_bare c, hcd,
        Cursor.advance_bare]
  refine Except.map_bind_congr hnext ?_
  intro next next' hshown
  exact congrArg Except.ok (Prod.ext (ofStep_congr h hshown)
    (congrArg some (Cursor.shown_eq_iff.1 hshown).1))

theorem mergeWith_congr (h : t.cursor.map Cursor.bare = u.cursor.map Cursor.bare)
    (upper : Option Cursor) (time time' : UInt64) :
    (t.mergeWith upper time).cursor.map Cursor.bare =
      (u.mergeWith upper time').cursor.map Cursor.bare :=
  Cursor.merge_congr h rfl

theorem reconcile_congr (h : t.cursor.map Cursor.bare = u.cursor.map Cursor.bare)
    (sibling : Cursor) (time time' : UInt64) :
    ((t.reconcile sibling time).map fun t' => t'.cursor.map Cursor.bare) =
      (u.reconcile sibling time').map fun t' => t'.cursor.map Cursor.bare := by
  rw [reconcile, reconcile]
  obtain ⟨ht, hu⟩ | ⟨c, d, ht, hu, hcd⟩ := Cursor.eq_of_map_bare h
  · rw [ht, hu]
    exact congrArg Except.ok h
  · have hlowered : (c.lowerBound sibling).map Cursor.bare =
        (d.lowerBound sibling).map Cursor.bare := by
      rw [← Cursor.lowerBound_bare c, hcd, Cursor.lowerBound_bare]
    rw [ht, hu]
    exact Except.map_bind_congr hlowered fun l l' hl => congrArg (fun b => Except.ok (some b)) hl

/-! ### Requests -/

/-- What is seen of an answer and the tracker after it. -/
def seen (step : Answer × Tracker) : Answer × Option Cursor :=
  (step.1, step.2.cursor.map Cursor.bare)

/-- A question leaves the tracker alone. -/
theorem seen_question {α : Type} (h : t.cursor.map Cursor.bare = u.cursor.map Cursor.bare)
    (x : Except CursorFault α) (f : α → Answer) :
    (x.map fun a => (f a, t)).map seen = (x.map fun a => (f a, u)).map seen := by
  cases x with
  | error fault => rfl
  | ok a => exact congrArg (fun c => Except.ok (f a, c)) h

/-- **No answer tells equal cursors apart.** -/
theorem answer_congr (h : t.cursor.map Cursor.bare = u.cursor.map Cursor.bare) (time time' : UInt64)
    (request : Request) :
    (t.answer time request).map seen = (u.answer time' request).map seen := by
  cases request with
  | advance position =>
    rw [answer, answer, Except.map_map, Except.map_map]
    refine Except.map_congr_of_map (advance_congr h position time time') ?_
    intro a b hab
    obtain ⟨houtcome, hcursor⟩ := Prod.mk.inj hab
    rw [seen, seen, houtcome, hcursor]
  | mergeWith upper =>
    exact congrArg (fun c => Except.ok (Answer.done, c)) (mergeWith_congr h upper time time')
  | reconcile sibling =>
    rw [answer, answer, Except.map_map, Except.map_map]
    refine Except.map_congr_of_map (reconcile_congr h sibling time time') ?_
    intro a b hab
    rw [seen, seen, hab]
  | requiresReplay position =>
    rw [answer, answer, requiresReplay_congr h]
    exact seen_question h _ _
  | lag head =>
    rw [answer, answer, lag_congr h]
    exact seen_question h _ _
  | mergePosition =>
    rw [answer, answer, mergePosition, mergePosition, mergePosition_congr h]
    exact seen_question h _ _
  | isMergeInProgress =>
    rw [answer, answer, isMergeInProgress, isMergeInProgress, isMergeInProgress_congr h]
    exact congrArg (fun c => Except.ok (_, c)) h
  | checkpoint =>
    rw [answer, answer, checkpoint_congr h]
    exact congrArg (fun c => Except.ok (_, c)) h

/-! ### Sessions -/

/-- What two steps have to have in common: the same answer or the same fault, and equal cursors. -/
def SameStep (a b : Except CursorFault Answer × Tracker) : Prop :=
  a.1 = b.1 ∧ (a.2.cursor == b.2.cursor) = true

theorem step_congr (h : t.cursor.map Cursor.bare = u.cursor.map Cursor.bare)
    (time time' : UInt64) (request : Request) :
    SameStep (t.step time request) (u.step time' request) := by
  have hanswer := answer_congr h time time' request
  rw [step, step]
  cases ht : t.answer time request with
  | error fault =>
    cases hu : u.answer time' request with
    | error fault' =>
      rw [ht, hu] at hanswer
      exact ⟨congrArg Except.error (Except.error.inj hanswer), Cursor.beq_half_iff.2 h⟩
    | ok b =>
      rw [ht, hu] at hanswer
      cases hanswer
  | ok a =>
    cases hu : u.answer time' request with
    | error fault =>
      rw [ht, hu] at hanswer
      cases hanswer
    | ok b =>
      rw [ht, hu] at hanswer
      obtain ⟨hab, hcursor⟩ := Prod.mk.inj (Except.ok.inj hanswer)
      exact ⟨congrArg Except.ok hab, Cursor.beq_half_iff.2 hcursor⟩

/-- A session without requests has no steps. -/
theorem serve_of_requests_nil {events : List Event} (h : requests events = []) (t : Tracker) :
    serve t events = [] := by
  induction events generalizing t with
  | nil => rfl
  | cons event events ih =>
    cases event with
    | request request time => cases h
    | restart config => exact ih h (t.restarted config)

/-- The restarts before the first request leave a tracker with an equal cursor for it. -/
theorem serve_of_requests_cons {events : List Event} {request : Request} {rest : List Request}
    (h : requests events = request :: rest) (t : Tracker) :
    ∃ (t' : Tracker) (time : UInt64) (events' : List Event),
      t'.cursor.map Cursor.bare = t.cursor.map Cursor.bare ∧ requests events' = rest ∧
        serve t events = t'.step time request :: serve (t'.step time request).2 events' := by
  induction events generalizing t with
  | nil => cases h
  | cons event events ih =>
    cases event with
    | request request' time =>
      obtain ⟨rfl, hrest⟩ := List.cons.inj h
      exact ⟨t, time, events, rfl, hrest, rfl⟩
    | restart config =>
      obtain ⟨t', time, events', ht', hrest, hserve⟩ := ih h (t.restarted config)
      exact ⟨t', time, events', ht'.trans (bare_cursor_restarted t config), hrest, hserve⟩

theorem serve_congr {events events' : List Event} (hrequests : requests events = requests events')
    (h : t.cursor.map Cursor.bare = u.cursor.map Cursor.bare) :
    List.Forall₂ SameStep (serve t events) (serve u events') := by
  generalize hlist : requests events = list at hrequests
  induction list generalizing t u events events' with
  | nil =>
    rw [serve_of_requests_nil hlist, serve_of_requests_nil hrequests.symm]
    exact .nil
  | cons request rest ih =>
    obtain ⟨t', time, es, ht', hes, hserve⟩ := serve_of_requests_cons hlist t
    obtain ⟨u', time', fs, hu', hfs, hserve'⟩ := serve_of_requests_cons hrequests.symm u
    have hstep := step_congr (ht'.trans (h.trans hu'.symm)) time time' request
    rw [hserve, hserve']
    exact .cons hstep (ih (Cursor.beq_half_iff.1 hstep.2) hes hfs.symm)

/-- **Restarts do not show.** Take two trackers with equal cursors and two sessions with the same
requests, at any times, with any restarts between them, under any configurations. Then step by step
the answers and the faults are the same, checkpoints included, and so are the cursors. A restart
succeeds, with an equal cursor, if the brackets of the written cursor are not nested too deep and
no merge in it is empty. -/
theorem serve_sameStep :
    (∀ (t u : Tracker) (events events' : List Event), (t.cursor == u.cursor) = true →
        requests events = requests events' →
          List.Forall₂ SameStep (serve t events) (serve u events')) ∧
      ∀ (t : Tracker) (segment : String) (config : Config),
        Cursor.depthOf t.cursor ≤ 127 → Cursor.halfWellFormed t.cursor = true →
          ∃ t', restore segment t.checkpoint config = .ok t' ∧ (t'.cursor == t.cursor) = true := by
  constructor
  · intro t u events events' h hrequests
    exact serve_congr hrequests (Cursor.beq_half_iff.1 h)
  · intro t segment config hdepth hformed
    refine ⟨_, restore_checkpoint segment config hdepth hformed, ?_⟩
    exact Cursor.beq_half_iff.2 (Cursor.map_bare_bareHalf t.cursor)

/-- A merged cursor whose flags are old and the one that is read for it, with a restart in the first
session and other times and another configuration in the second. The restart succeeds. -/
theorem serve_sameStep_restart :
    List.Forall₂ SameStep
      (serve (start "orders-7" (some (.merged (some (.replay (.sequence 9) none false))
          (some (.sequence 4)) true false)) {})
        [.request (.advance (.sequence 5)) 10, .restart { level := .trace },
          .request .checkpoint 11, .request (.advance (.sequence 12)) 12])
      (serve (start "orders-8" (some (.merged (some (.replay (.sequence 9) none true))
          (some (.sequence 4)) false false)) { verifyChecksums := false })
        [.request (.advance (.sequence 5)) 0, .request .checkpoint 0,
          .request (.advance (.sequence 12)) 0]) ∧
      ∃ t', restore "orders-7" (start "orders-7" (some (.merged
          (some (.replay (.sequence 9) none false)) (some (.sequence 4)) true false)) {}).checkpoint
          { level := .trace } = .ok t' ∧
        (t'.cursor == some (.merged (some (.replay (.sequence 9) none false))
          (some (.sequence 4)) true false)) = true := by
  obtain ⟨hsessions, hrestart⟩ := serve_sameStep
  refine ⟨hsessions _ _ _ _ rfl rfl, ?_⟩
  exact hrestart (start "orders-7" (some (.merged (some (.replay (.sequence 9) none false))
    (some (.sequence 4)) true false)) {}) "orders-7" { level := .trace } (by decide) (by decide)

end Tracker

end StreamProgress
