import StreamProgress.Proofs.Except
import StreamProgress.Proofs.Journal.Lines
import StreamProgress.Tracker

/-!
# The history of a tracker

The operations of a tracker give a new tracker or a fault. Whoever holds the tracker changes it in
place instead, one field after the other, and then it is a question of the order whether a fault finds
the tracker half changed: a merge takes the cursor out before it puts the merged one back, and every
operation writes to the journal after it has changed the cursor. Here the operations are written down
in this way, as computations that keep what they have changed if a fault stops them, and
`Ledger.run_perform` says that they do what the tracker does. A fault comes before the first change.

## What is offered and what is kept

A journal that is at a higher level drops an entry, and to make room it drops its oldest lines, so its
lines do not tell what was offered to it. A `Ledger` is a tracker together with all entries that its
journal was offered, each with the level that the journal was at. An operation offers one entry or
none, and the lines that are kept in the end are a suffix of the lines of the offers that were
recorded. The levels are those at the time, since the level may be set between two operations.

## Main definitions

* `Tracker.act`, `Tracker.Action.entry` — what is done to a tracker, and what is offered for it
* `Ledger.perform` — an action in place

## Main results

* `Ledger.run_perform` — in place the operations do what they do to a tracker
* `Ledger.history_of_actions` — faults change nothing, and the journal ends with what was offered
-/

namespace StreamProgress

namespace Tracker

/-- What is done to a tracker. -/
inductive Action where
  | advance (position : Cursor) (time : UInt64)
  | mergeWith (upper : Option Cursor) (time : UInt64)
  | reconcile (sibling : Cursor) (time : UInt64)
  | setLevel (level : Level)

/-- The tracker after an action, with the outcome if the action was an advance. -/
def act (t : Tracker) : Action → Except CursorFault (Option Outcome × Tracker)
  | .advance position time => (t.advance position time).map fun step => (some step.1, step.2)
  | .mergeWith upper time => .ok (none, t.mergeWith upper time)
  | .reconcile sibling time => (t.reconcile sibling time).map fun t' => (none, t')
  | .setLevel level => .ok (none, t.setLevel level)

/-- The entry that the journal is offered for an action, which came from tracker `t` to tracker `t'`.
It has the cursor after the action. A segment that has not started offers nothing when it is
reconciled, as it stays so. -/
def Action.entry (t t' : Tracker) (outcome : Option Outcome) : Action → Option Entry
  | .advance _ time => outcome.map fun o => ⟨time, o.level, t.segment, o.message, t'.cursor⟩
  | .mergeWith _ time =>
    some ⟨time, .info, t.segment,
      if t'.isMergeInProgress then "segments merged" else "segments merged at a common position",
      t'.cursor⟩
  | .reconcile _ time =>
    t.cursor.map fun _ => ⟨time, .debug, t.segment, "cursor reconciled with sibling", t'.cursor⟩
  | .setLevel _ => none

end Tracker

/-- An entry that a journal was offered. -/
structure Offer where
  /-- The level that the journal was at. -/
  active : Level
  entry : Entry

namespace Offer

/-- Whether the journal recorded the entry. -/
def isRecorded (o : Offer) : Bool := o.active ≤ o.entry.level

/-- The line of the entry. -/
def line (speaker : String) (o : Offer) : String := o.entry.line speaker

end Offer

/-- A tracker, and what its journal has been offered, the oldest first. -/
structure Ledger where
  tracker : Tracker
  offers : List Offer

namespace Ledger

open Tracker (Action)

variable {l l' l'' : Ledger} {t : Tracker}

/-! ### Changes in place -/

/-- A computation that changes a ledger. What it has changed when a fault stops it stays changed. -/
abbrev InPlace := EStateM CursorFault Ledger

/-- Take the cursor out of the tracker. -/
def takeCursor : InPlace (Option Cursor) :=
  modifyGet fun l => (l.tracker.cursor, { l with tracker := { l.tracker with cursor := none } })

/-- Put a cursor into the tracker. -/
def putCursor (cursor : Option Cursor) : InPlace Unit :=
  modify fun l => { l with tracker := { l.tracker with cursor } }

/-- Offer an entry with the present cursor to the journal. -/
def log (time : UInt64) (level : Level) (message : String) : InPlace Unit :=
  modify fun l =>
    let entry := ⟨time, level, l.tracker.segment, message, l.tracker.cursor⟩
    { tracker := { l.tracker with journal := l.tracker.journal.record entry }
      offers := l.offers ++ [⟨l.tracker.journal.level, entry⟩] }

/-- Thread a position that has been read into the cursor. -/
def advance (position : Cursor) (time : UInt64) : InPlace Outcome := do
  let before := (← get).tracker.cursor
  let next ← MonadExcept.ofExcept (Cursor.advanceFrom before position)
  let outcome := Outcome.ofStep before next
  putCursor (some next)
  log time outcome.level outcome.message
  return outcome

/-- Absorb the sibling segment that has the upper half. -/
def mergeWith (upper : Option Cursor) (time : UInt64) : InPlace Unit := do
  let lower ← takeCursor
  putCursor (Cursor.merge lower upper)
  let merged := (← get).tracker
  let message :=
    if merged.isMergeInProgress then "segments merged" else "segments merged at a common position"
  log time .info message

/-- Lower the cursor to what a sibling has read as well. -/
def reconcile (sibling : Cursor) (time : UInt64) : InPlace Unit := do
  match (← get).tracker.cursor with
  | none => return
  | some c =>
    let lowered ← MonadExcept.ofExcept (c.lowerBound sibling)
    putCursor (some lowered)
    log time .debug "cursor reconciled with sibling"

/-- Set the level of the journal. -/
def setLevel (level : Level) : InPlace Unit :=
  modify fun l => { l with tracker := { l.tracker with journal := l.tracker.journal.setLevel level } }

/-- An action, with the outcome if it is an advance. -/
def perform : Action → InPlace (Option Outcome)
  | .advance position time => do
    let outcome ← advance position time
    return some outcome
  | .mergeWith upper time => do
    mergeWith upper time
    return none
  | .reconcile sibling time => do
    reconcile sibling time
    return none
  | .setLevel level => do
    setLevel level
    return none

/-! ### What the changes in place come to -/

/-- The ledger with another tracker, and with the entry that the journal was offered on the way, if
there was one. -/
def offering (l : Ledger) (t : Tracker) : Option Entry → Ledger
  | none => ⟨t, l.offers⟩
  | some entry => ⟨t, l.offers ++ [⟨l.tracker.journal.level, entry⟩]⟩

theorem run_advance (l : Ledger) (position : Cursor) (time : UInt64) :
    (advance position time).run l =
      match l.tracker.advance position time with
      | .error fault => .error fault l
      | .ok (outcome, t) =>
        .ok outcome (l.offering t ((Action.advance position time).entry l.tracker t outcome)) := by
  simp only [advance, Tracker.advance, EStateM.run_bind, EStateM.run_get]
  cases Cursor.advanceFrom l.tracker.cursor position with
  | error fault => rfl
  | ok next => rfl

/-- The cursor is out of the tracker for a while, but nothing can go wrong then. -/
theorem run_mergeWith (l : Ledger) (upper : Option Cursor) (time : UInt64) :
    (mergeWith upper time).run l =
      let t := l.tracker.mergeWith upper time
      .ok () (l.offering t ((Action.mergeWith upper time).entry l.tracker t none)) := rfl

theorem run_reconcile (l : Ledger) (sibling : Cursor) (time : UInt64) :
    (reconcile sibling time).run l =
      match l.tracker.reconcile sibling time with
      | .error fault => .error fault l
      | .ok t => .ok () (l.offering t ((Action.reconcile sibling time).entry l.tracker t none)) := by
  obtain ⟨⟨segment, cursor, verifyChecksums, journal⟩, offers⟩ := l
  cases cursor with
  | none => rfl
  | some c =>
    simp only [reconcile, Tracker.reconcile, EStateM.run_bind, EStateM.run_get]
    cases c.lowerBound sibling with
    | error fault => rfl
    | ok lowered => rfl

/-- **In place, an action does what it does to a tracker,** and a fault finds nothing changed. -/
theorem run_perform (l : Ledger) (action : Action) :
    (perform action).run l =
      match l.tracker.act action with
      | .error fault => .error fault l
      | .ok (outcome, t) => .ok outcome (l.offering t (action.entry l.tracker t outcome)) := by
  cases action with
  | advance position time =>
    rw [perform, EStateM.run_bind, run_advance, Tracker.act]
    cases l.tracker.advance position time with
    | error fault => rfl
    | ok step => rfl
  | mergeWith upper time =>
    rw [perform, EStateM.run_bind, run_mergeWith]
    rfl
  | reconcile sibling time =>
    rw [perform, EStateM.run_bind, run_reconcile, Tracker.act]
    cases l.tracker.reconcile sibling time with
    | error fault => rfl
    | ok t => rfl
  | setLevel level => rfl

/-! ### Histories -/

/-- The ledger after an action, whether it has failed or not. -/
def after (l : Ledger) (action : Action) : Ledger :=
  match (perform action).run l with
  | .ok _ l' => l'
  | .error _ l' => l'

/-- The ledger after all actions, one after the other. -/
def afterAll (l : Ledger) (actions : List Action) : Ledger := actions.foldl after l

/-- The lines of those offers that were recorded. -/
def recorded (speaker : String) (offers : List Offer) : List String :=
  (offers.filter Offer.isRecorded).map (Offer.line speaker)

/-- A ledger comes later than another one: more was offered to the same journal, and the lines that it
keeps are the last of those it had and those it recorded. -/
structure Follows (l l' : Ledger) : Prop where
  speaker_eq : l'.tracker.journal.speaker = l.tracker.journal.speaker
  exists_offers : ∃ offers, l'.offers = l.offers ++ offers ∧
    l'.tracker.journal.lines <:+
      l.tracker.journal.lines ++ recorded l.tracker.journal.speaker offers

theorem Follows.refl (l : Ledger) : Follows l l :=
  ⟨rfl, [], (List.append_nil l.offers).symm, [], (List.append_nil l.tracker.journal.lines).symm⟩

theorem Follows.trans (h : Follows l l') (h' : Follows l' l'') : Follows l l'' := by
  obtain ⟨offers, hoffers, hlines⟩ := h.exists_offers
  obtain ⟨offers', hoffers', hlines'⟩ := h'.exists_offers
  refine ⟨h'.speaker_eq.trans h.speaker_eq, offers ++ offers', ?_, ?_⟩
  · rw [hoffers', hoffers, List.append_assoc]
  · obtain ⟨forgotten, hlines⟩ := hlines
    refine hlines'.trans ⟨forgotten, ?_⟩
    rw [h.speaker_eq, ← List.append_assoc, hlines, recorded, recorded, recorded, List.filter_append,
      List.map_append, List.append_assoc]

/-- An entry was offered and recorded, if the journal was not above its level. -/
theorem follows_offering_some {e : Entry} (h : t.journal = l.tracker.journal.record e) :
    Follows l (l.offering t (some e)) := by
  refine ⟨?_, [⟨l.tracker.journal.level, e⟩], rfl, ?_⟩
  · exact h ▸ Journal.speaker_record l.tracker.journal e
  · have hkept := Journal.lines_record_suffix l.tracker.journal e
    rw [← h] at hkept
    by_cases hlevel : l.tracker.journal.level ≤ e.level
    · have hrecorded : Offer.isRecorded ⟨l.tracker.journal.level, e⟩ = true :=
        decide_eq_true hlevel
      rw [if_pos hlevel] at hkept
      rw [recorded, List.filter_cons_of_pos hrecorded]
      exact hkept
    · have hrecorded : ¬Offer.isRecorded ⟨l.tracker.journal.level, e⟩ = true :=
        mt of_decide_eq_true hlevel
      rw [if_neg hlevel] at hkept
      rw [recorded, List.filter_cons_of_neg hrecorded]
      exact hkept

/-- Nothing was offered, and the lines are what they were. -/
theorem follows_offering_none (hspeaker : t.journal.speaker = l.tracker.journal.speaker)
    (hlines : t.journal.lines = l.tracker.journal.lines) : Follows l (l.offering t none) :=
  ⟨hspeaker, [], (List.append_nil l.offers).symm, [],
    hlines.trans (List.append_nil l.tracker.journal.lines).symm⟩

/-- An action that comes to a tracker has recorded there what it offers. -/
theorem ends_act (l : Ledger) (action : Action) :
    (l.tracker.act action).Ends (fun _ => True) fun step =>
      Follows l (l.offering step.2 (action.entry l.tracker step.2 step.1)) := by
  cases action with
  | advance position time =>
    have hadvance : (l.tracker.advance position time).Ends (fun _ => True) fun step =>
        step.2.journal = l.tracker.journal.record
          ⟨time, step.1.level, l.tracker.segment, step.1.message, step.2.cursor⟩ :=
      (Except.ends_true _).bind fun _ _ => rfl
    exact hadvance.map fun _ h => follows_offering_some h
  | mergeWith upper time => exact follows_offering_some rfl
  | reconcile sibling time =>
    rw [Tracker.act, Tracker.reconcile]
    cases hc : l.tracker.cursor with
    | none =>
      show Follows l (l.offering l.tracker (l.tracker.cursor.map _))
      rw [hc]
      exact follows_offering_none rfl rfl
    | some c =>
      have hlowered : (do
          let lowered ← c.lowerBound sibling
          return l.tracker.change time .debug "cursor reconciled with sibling" (some lowered) :
            Except CursorFault Tracker).Ends (fun _ => True) fun t' =>
          t'.journal = l.tracker.journal.record
            ⟨time, .debug, l.tracker.segment, "cursor reconciled with sibling", t'.cursor⟩ :=
        (Except.ends_true _).bind fun _ _ => rfl
      refine hlowered.map fun t' h => ?_
      rw [Action.entry, hc]
      exact follows_offering_some h
  | setLevel level => exact follows_offering_none rfl rfl

theorem follows_after (l : Ledger) (action : Action) : Follows l (l.after action) := by
  have hact := ends_act l action
  rw [after, run_perform]
  cases h : l.tracker.act action with
  | error fault => exact Follows.refl l
  | ok step => exact hact.of_eq_ok h

theorem follows_afterAll (l : Ledger) (actions : List Action) : Follows l (l.afterAll actions) := by
  induction actions generalizing l with
  | nil => exact Follows.refl l
  | cons action actions ih => exact (follows_after l action).trans (ih (l.after action))

/-- **A fault changes nothing, and a journal ends with what was offered to it.** Take any tracker, and
advance, merge and reconcile it with any cursors and set the level of its journal, in any order and in
place.

* An action that faults leaves the tracker as it was, with its flags, its level and its files, and has
  offered nothing. Another one comes to the tracker that the operation gives and offers its entry:
  an advance, a merge, and a reconciliation of a segment that has started offer one, and the others
  offer none.
* The line of an entry is an object with the time, the level, the segment and, if there is one, the
  cursor after the action.
* After any actions, failed ones among them, the lines of the journal are the last ones of those that
  it had and those of the offers that were not below its level at the time. So a tracker that was
  started or restored keeps the last of its recorded offers. -/
theorem history_of_actions :
    (∀ (l : Ledger) (action : Action), (perform action).run l =
        match l.tracker.act action with
        | .error fault => .error fault l
        | .ok (outcome, t) => .ok outcome (l.offering t (action.entry l.tracker t outcome))) ∧
      (∀ (speaker : String) (o : Offer), o.line speaker =
        (Json.object ([("ts", .count o.entry.time), ("level", .string o.entry.level.name),
          ("module", .string speaker), ("segment", .string o.entry.segment),
          ("message", .string o.entry.message)] ++
            (o.entry.cursor.map fun c => ("cursor", c.toJson)).toList)).text) ∧
      (∀ (l : Ledger) (actions : List Action), ∃ offers,
        (l.afterAll actions).offers = l.offers ++ offers ∧
          (l.afterAll actions).tracker.journal.lines <:+
            l.tracker.journal.lines ++ recorded l.tracker.journal.speaker offers) ∧
      ∀ (segment : String) (cursor : Option Cursor) (config : Config) (actions : List Action),
        (afterAll ⟨Tracker.start segment cursor config, []⟩ actions).tracker.journal.lines <:+
          recorded Tracker.speaker
            (afterAll ⟨Tracker.start segment cursor config, []⟩ actions).offers := by
  refine ⟨run_perform, ?_, fun l actions => (follows_afterAll l actions).exists_offers, ?_⟩
  · intro speaker o
    rw [Offer.line, Entry.line, Entry.toJson]
    cases o.entry.cursor with
    | none => rfl
    | some c => rfl
  · intro segment cursor config actions
    obtain ⟨offers, hoffers, hlines⟩ :=
      (follows_afterAll ⟨Tracker.start segment cursor config, []⟩ actions).exists_offers
    rw [hoffers]
    exact hlines

/-- The level is `info` at first, so the first offer is dropped. The second advance faults and offers
nothing. -/
example :
    let c := Cursor.merged (some (.sequence 5)) (some (.sequence 3)) false false
    let actions : List Action := [.advance (.sequence 4) 10, .advance (.partitions .empty) 11,
      .setLevel .debug, .reconcile (.sequence 3) 12]
    ((afterAll ⟨Tracker.start "orders-7" (some c) {}, []⟩ actions).offers.map fun o =>
      (o.entry.time, o.isRecorded)) = [(10, false), (12, true)] := by
  rfl

end Ledger

end StreamProgress
