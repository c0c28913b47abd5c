import StreamProgress.Proofs.Cursor.Reading
import StreamProgress.Proofs.Tracker.Session

/-!
# The faults of a session

What a tracker does with its cursor may fault, and then the request fails and the cursor stays. Here
the faults of the operations are carried to requests and from requests to sessions: in every setting
(`Cursor.Setting`) what a cursor is made of, and which faults may occur, is kept by each request and
so by all of them.

## Segments of one kind

A segment in which only positions of one kind occur never faults. It may be merged with other
segments of the kind and restarted between any two requests, and its cursor may hold replays, whose
progress and reset points are cursors again. What keeps this true is that nothing but plain positions
comes from outside as an operand.

## Empty merges

A merged cursor with two absent halves comes from nowhere. It is refused where text is read and where
two halves are paired, and no operation makes one out of cursors without it.

## Main results

* `Tracker.serve_ends` — what every setting keeps throughout a session
* `Tracker.serve_ok_of_kind` — segments of one kind
* `Tracker.no_emptyMerge` — empty merges
-/

namespace StreamProgress

namespace Tracker

variable {t : Tracker} {request : Request} {events : List Event} {E : CursorFault → Prop}
  {P : Position → Prop} {Q R : Cursor → Prop}

/-- The operands of a request are `Q`, and what is merged into the segment is `R`. -/
def Request.Uses (Q R : Cursor → Prop) : Request → Prop
  | .advance position => Q position
  | .mergeWith upper => ∀ c ∈ upper, R c
  | .reconcile sibling => Q sibling
  | .requiresReplay position => Q position
  | .lag _ => True
  | .mergePosition => True
  | .isMergeInProgress => True
  | .checkpoint => True

theorem Request.Uses.mono {Q' R' : Cursor → Prop} (h : request.Uses Q R) (hQ : ∀ c, Q c → Q' c)
    (hR : ∀ c, R c → R' c) : request.Uses Q' R' := by
  cases request with
  | advance position => exact hQ position h
  | mergeWith upper => exact fun c hc => hR c (h c hc)
  | reconcile sibling => exact hQ sibling h
  | requiresReplay position => exact hQ position h
  | lag head => trivial
  | mergePosition => trivial
  | isMergeInProgress => trivial
  | checkpoint => trivial

/-! ### Requests -/

theorem ends_mergePosition (hs : Cursor.Setting E P Q) (ht : ∀ c ∈ t.cursor, c.MadeOf P) :
    t.mergePosition.Ends E fun _ => True := by
  rw [mergePosition, Cursor.mergePosition]
  cases hfound : Cursor.unwrapHalf .merged t.cursor with
  | none => trivial
  | some found =>
    have hmade : found.MadeOf P := by
      cases hc : t.cursor with
      | none =>
        rw [hc] at hfound
        cases hfound
      | some c =>
        rw [hc] at hfound
        exact (ht c hc).unwrap_merged hfound
    exact (hs.ends_ceiling hmade).bind fun _ _ => trivial

/-- **A request keeps the setting.** It is answered, and then the cursor is again made of what it was
made of, or there is one of the faults of the setting. -/
theorem ends_answer (hs : Cursor.Setting E P Q) (ht : ∀ c ∈ t.cursor, c.MadeOf P)
    (hr : request.Uses Q (Cursor.MadeOf P)) (time : UInt64) :
    (t.answer time request).Ends E fun step => ∀ c ∈ step.2.cursor, c.MadeOf P := by
  cases request with
  | advance position =>
    have hadvance : (t.advance position time).Ends E fun step => ∀ c ∈ step.2.cursor, c.MadeOf P := by
      refine (hs.ends_advanceFrom ht hr).bind ?_
      intro next hnext
      exact hnext.some
    exact hadvance.map fun _ h => h
  | mergeWith upper =>
    rw [answer, Except.ends_ok_iff, mergeWith, cursor_change]
    exact Cursor.MadeOf.merge ht hr
  | reconcile sibling =>
    have hreconcile : (t.reconcile sibling time).Ends E fun t' => ∀ c ∈ t'.cursor, c.MadeOf P := by
      rw [reconcile]
      cases hc : t.cursor with
      | none => exact ht
      | some c =>
        refine (hs.ends_lowerBound (ht c hc) hr).bind ?_
        intro lowered hlowered
        exact hlowered.some
    exact hreconcile.map fun _ h => h
  | requiresReplay position =>
    have hcovers : (Cursor.halfCovers t.cursor position).Ends E fun _ => True :=
      Cursor.Setting.ends_halfCovers fun c hc => hs.ends_covers (ht c hc) hr
    have hrequires : (t.requiresReplay position).Ends E fun _ => True :=
      hcovers.bind fun _ _ => trivial
    exact hrequires.map fun _ _ => ht
  | lag head =>
    have hlag : (t.lag head).Ends E fun _ => True := (hs.ends_floorOf ht).bind fun _ _ => trivial
    exact hlag.map fun _ _ => ht
  | mergePosition => exact (ends_mergePosition hs ht).map fun _ _ => ht
  | isMergeInProgress =>
    rw [answer, Except.ends_ok_iff]
    exact ht
  | checkpoint =>
    rw [answer, Except.ends_ok_iff]
    exact ht

/-- A request that fails leaves the cursor alone. -/
theorem ends_step (hs : Cursor.Setting E P Q) (ht : ∀ c ∈ t.cursor, c.MadeOf P)
    (hr : request.Uses Q (Cursor.MadeOf P)) (time : UInt64) :
    (t.step time request).1.Ends E (fun _ => True) ∧
      ∀ c ∈ (t.step time request).2.cursor, c.MadeOf P := by
  have hanswer := ends_answer hs ht hr time
  rw [step]
  cases h : t.answer time request with
  | error fault => exact ⟨hanswer.of_eq_error h, ht⟩
  | ok answered => exact ⟨trivial, hanswer.of_eq_ok h⟩

/-! ### Sessions -/

/-- A restart forgets flags only. -/
theorem madeOf_restarted (ht : ∀ c ∈ t.cursor, c.MadeOf P) (config : Config) :
    ∀ c ∈ (t.restarted config).cursor, c.MadeOf P := by
  intro c hc
  obtain ⟨hnone, -⟩ | ⟨c', d, hc', hd, hbare⟩ := Cursor.eq_of_map_bare (bare_cursor_restarted t config)
  · rw [Option.mem_def, hnone] at hc
    cases hc
  · obtain rfl : c' = c := Option.some.inj (hc'.symm.trans hc)
    rw [← Cursor.madeOf_bare, hbare, Cursor.madeOf_bare]
    exact ht d hd

/-- There is a step for each request. -/
theorem length_serve (t : Tracker) (events : List Event) :
    (serve t events).length = (requests events).length := by
  induction events generalizing t with
  | nil => rfl
  | cons event events ih =>
    cases event with
    | restart config => exact ih (t.restarted config)
    | request request time => exact congrArg (· + 1) (ih (t.step time request).2)

/-- **A session keeps the setting,** step by step, through all restarts. -/
theorem serve_ends (hs : Cursor.Setting E P Q) (ht : ∀ c ∈ t.cursor, c.MadeOf P)
    (hevents : ∀ request ∈ requests events, request.Uses Q (Cursor.MadeOf P)) :
    ∀ step ∈ serve t events, step.1.Ends E (fun _ => True) ∧ ∀ c ∈ step.2.cursor, c.MadeOf P := by
  induction events generalizing t with
  | nil =>
    rw [serve]
    exact List.forall_mem_nil _
  | cons event events ih =>
    cases event with
    | restart config => exact ih (madeOf_restarted ht config) hevents
    | request request time =>
      obtain ⟨hrequest, hrest⟩ := List.forall_mem_cons.1 hevents
      have hstep := ends_step hs ht hrequest time
      exact List.forall_mem_cons.2 ⟨hstep, ih hstep.2 hrest⟩

/-! ### Segments of one kind -/

/-- **A segment of one kind never faults.** Take a tracker whose cursor is absent or made of plain
positions of one kind, at whatever places in it, without empty merges. Advance it, reconcile it and
ask it with plain positions of the kind, merge it with such cursors, ask anything else, and restart
it, in any order. Every request is answered, and after it the cursor is again made of plain positions
of the kind, without empty merges. -/
theorem serve_ok_of_kind {k : Kind} (ht : ∀ c ∈ t.cursor, c.MadeOf fun p => p.kind = k)
    (hevents : ∀ request ∈ requests events, request.Uses
      (fun c => ∃ p : Position, c = .plain p ∧ p.kind = k) (Cursor.MadeOf fun p => p.kind = k)) :
    (serve t events).length = (requests events).length ∧
      ∀ step ∈ serve t events, (∃ answer, step.1 = .ok answer) ∧
        ∀ c ∈ step.2.cursor, c.MadeOf fun p => p.kind = k := by
  refine ⟨length_serve t events, ?_⟩
  intro step hstep
  obtain ⟨hends, hmade⟩ := serve_ends (Cursor.setting_ofKind k) ht hevents step hstep
  obtain ⟨answer, hanswer, -⟩ := hends.exists_eq_ok
  exact ⟨⟨answer, hanswer⟩, hmade⟩

/-- A replay whose reset point is merged, with a half that is absent, is merged into a plain segment.
Then the segment is advanced, restarted and reconciled. -/
theorem serve_ok_of_kind_partitions :
    ∃ t events, t = start "orders-7" (some (.partitions (.ofPairs [("b", 2)]))) {} ∧
      events = [.request (.mergeWith (some (.replay (.merged (some (.partitions (.ofPairs [("a", 4)])))
          none true false) (some (.partitions (.ofPairs [("a", 1)]))) false))) 10,
        .request (.advance (.partitions (.ofPairs [("a", 5), ("b", 2)]))) 11, .restart {},
        .request (.reconcile (.partitions (.ofPairs [("a", 3)]))) 12, .request (.lag 9) 13,
        .request .mergePosition 14] ∧
      (serve t events).length = 5 ∧ ∀ step ∈ serve t events, (∃ answer, step.1 = .ok answer) ∧
        ∀ c ∈ step.2.cursor, c.MadeOf fun p => p.kind = .partitionOffsets := by
  have hplain (offsets : Offsets) :
      (Cursor.partitions offsets).MadeOf fun p => p.kind = .partitionOffsets := .plain rfl
  have hmade : (Cursor.replay (.merged (some (.partitions (.ofPairs [("a", 4)]))) none true false)
      (some (.partitions (.ofPairs [("a", 1)]))) false).MadeOf fun p => p.kind = .partitionOffsets :=
    .replay (.merged rfl (hplain _).some nofun) (hplain _).some
  refine ⟨_, _, rfl, rfl, serve_ok_of_kind (hplain _).some ?_⟩
  simp only [requests, List.forall_mem_cons, Request.Uses]
  exact ⟨hmade.some, ⟨_, rfl, rfl⟩, ⟨_, rfl, rfl⟩, trivial, trivial, List.forall_mem_nil _⟩

/-! ### Empty merges -/

/-- **Empty merges come from nowhere.** No text and no checkpoint is read as a cursor with an empty
merge in it, and no tracker is restored with one. An operation on cursors without empty merges does
not come to one, and it has that fault iff it pairs two absent halves. In a session without empty
merges in its requests no request has that fault, and the cursor never has an empty merge. -/
theorem no_emptyMerge :
    (∀ text c, Cursor.parse text = .ok c → c.wellFormed = true) ∧
      (∀ verify r half, Checkpoint.restore verify r = .ok half →
        Cursor.halfWellFormed half = true) ∧
      (∀ segment r config t, restore segment r config = .ok t →
        Cursor.halfWellFormed t.cursor = true) ∧
      (∀ op : Cursor.Operation, op.operandsWellFormed = true →
        (∀ half, op.run = .ok half → Cursor.halfWellFormed half = true) ∧
          (op.run = .error .emptyMerge ↔ op = .ofHalves none none)) ∧
        ∀ t events, Cursor.halfWellFormed t.cursor = true →
          (∀ request ∈ requests events, request.Uses (fun c => c.wellFormed = true)
            fun c => c.wellFormed = true) →
          ∀ step ∈ serve t events, step.1 ≠ .error .emptyMerge ∧
            Cursor.halfWellFormed step.2.cursor = true := by
  refine ⟨?_, ?_, ?_, ?_, ?_⟩
  · intro text c h
    exact (Cursor.readsFormed_parse text).of_eq_ok h
  · intro verify r half h
    exact (Checkpoint.readsHalfFormed_restore verify r).of_eq_ok h
  · intro segment r config t h
    obtain ⟨half, hhalf, h⟩ := Except.bind_eq_ok_iff.1 h
    obtain rfl : start segment half config = t := Except.ok.inj h
    exact (Checkpoint.readsHalfFormed_restore _ r).of_eq_ok hhalf
  · intro op hop
    by_cases hpair : op = .ofHalves none none
    · subst hpair
      exact ⟨nofun, fun _ => rfl, fun _ => rfl⟩
    · have hends := Cursor.Operation.ends_run hop hpair
      refine ⟨fun half h => hends.of_eq_ok h, fun h => ?_, fun h => absurd h hpair⟩
      exact absurd rfl (hends.of_eq_error h)
  · intro t events ht hevents step hstep
    obtain ⟨hends, hmade⟩ := serve_ends Cursor.setting_wellFormed
      (Cursor.madeOfHalf_iff_halfWellFormed.2 ht)
      (fun request hrequest => (hevents request hrequest).mono (fun _ => id)
        fun _ => Cursor.madeOf_iff_wellFormed.2) step hstep
    exact ⟨fun h => hends.of_eq_error h rfl, Cursor.madeOfHalf_iff_halfWellFormed.1 hmade⟩

/-- One half is absent. It is not written as an empty merge, so the text of the cursor and a
checkpoint of it are read, and neither lowering nor a session makes one of it, though the flag of the
half that moved is forgotten. -/
theorem no_emptyMerge_absent :
    ∃ c d r t half, c = Cursor.merged (some (.sequence 4)) none true false ∧
      Cursor.parse c.text = .ok d ∧ d.wellFormed = true ∧
      r = Checkpoint.of (some c) ∧ Checkpoint.restore true r = .ok (some d) ∧
        Cursor.halfWellFormed (some d) = true ∧
      restore "orders-7" r {} = .ok t ∧ Cursor.halfWellFormed t.cursor = true ∧
      (Cursor.Operation.lowerBound d (.sequence 3)).run = .ok half ∧
        Cursor.halfWellFormed half = true ∧
      ∀ step ∈ serve t [.request (.mergeWith (some (.replay (.sequence 9) none true))) 10,
          .request (.advance (.sequence 5)) 11],
        step.1 ≠ .error .emptyMerge ∧ Cursor.halfWellFormed step.2.cursor = true := by
  obtain ⟨c, hc⟩ : ∃ c, c = Cursor.merged (some (.sequence 4)) none true false := ⟨_, rfl⟩
  have hparse : Cursor.parse c.text = .ok c.bare := by
    rw [Cursor.parse_text, hc]
    rfl
  have hrestore : Checkpoint.restore true (.of (some c)) = .ok (some c.bare) := by
    rw [Checkpoint.restore_of, hc]
    rfl
  have htracker : restore "orders-7" (.of (some c)) {} =
      .ok (start "orders-7" (some c.bare) {}) := by
    rw [restore, hrestore]
    rfl
  obtain ⟨hread, hdecoded, hrestored, hoperations, hsession⟩ := no_emptyMerge
  have hformed := hrestored _ _ _ _ htracker
  have hlowered : (Cursor.Operation.lowerBound c.bare (.sequence 3)).run =
      .ok (some (.merged (some (.sequence 3)) none false false)) := by
    subst hc
    rfl
  refine ⟨c, _, _, _, _, hc, hparse, hread _ _ hparse, rfl, hrestore, hdecoded _ _ _ hrestore,
    htracker, hformed, hlowered, ?_, ?_⟩
  · refine (hoperations (.lowerBound c.bare (.sequence 3)) ?_).1 _ hlowered
    subst hc
    rfl
  · refine hsession _ _ hformed ?_
    simp only [requests, List.forall_mem_cons, Request.Uses]
    refine ⟨?_, rfl, List.forall_mem_nil _⟩
    rintro _ ⟨⟩
    rfl

end Tracker

end StreamProgress
