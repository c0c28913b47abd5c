import StreamProgress.Checkpoint
import StreamProgress.Config
import StreamProgress.Cursor.Access
import StreamProgress.Cursor.Advance

/-!
# Tracking the progress of a segment

A `Tracker` owns the cursor of one segment and the journal of what happened to it. Every operation
that may change the cursor is a function to a new tracker, or to a fault, in which case there is
no new tracker and the old one is still what it was: nothing is half done.

Each change offers one entry to the journal, after the change, with the cursor that the segment
has then.

## Main definitions

* `Tracker.advance` — thread a position that has been read into the cursor, with an `Outcome`
* `Tracker.mergeWith` — absorb the sibling segment
* `Tracker.reconcile` — lower the cursor to what a sibling has read as well
* `Tracker.requiresReplay`, `Tracker.lag`, `Tracker.mergePosition` — questions
* `Tracker.checkpoint`, `Tracker.restore` — the stored form
-/

namespace StreamProgress

/-- What an advance did to the cursor of a segment. -/
inductive Outcome where
  /-- The segment had no cursor and took the position over. -/
  | started
  /-- The cursor is what it was. -/
  | unchanged
  | advanced
  /-- The cursor is merged, and these halves moved. -/
  | merging (lowerAdvanced upperAdvanced : Bool)
  /-- The halves of a merge converged. -/
  | mergeCompleted
  deriving DecidableEq, Repr

namespace Outcome

/-- How an outcome is shown. -/
def text : Outcome → String
  | .started => "Started"
  | .unchanged => "Unchanged"
  | .advanced => "Advanced"
  | .merging lowerAdvanced upperAdvanced =>
    "Merging \x7b lower_advanced: " ++ flag lowerAdvanced ++ ", upper_advanced: " ++
      flag upperAdvanced ++ " \x7d"
  | .mergeCompleted => "MergeCompleted"
where
  /-- How a flag is shown. -/
  flag (b : Bool) : String := if b then "true" else "false"

/-- The level of the journal entry for an outcome. -/
def level : Outcome → Level
  | .mergeCompleted => .info
  | .unchanged => .trace
  | .started | .merging _ _ | .advanced => .debug

/-- The message of the journal entry for an outcome. -/
def message : Outcome → String
  | .started => "segment started"
  | .unchanged => "cursor unchanged"
  | .advanced => "cursor advanced"
  | .merging _ _ => "merge advanced"
  | .mergeCompleted => "merge completed"

/-- The outcome of a step from an optional cursor to a cursor. -/
def ofStep (before : Option Cursor) (after : Cursor) : Outcome :=
  match before, after with
  | none, _ => .started
  | some _, .merged _ _ lowerAdvanced upperAdvanced => .merging lowerAdvanced upperAdvanced
  | some c, after =>
    if Cursor.isMergeInProgress (some c) && !Cursor.isMergeInProgress (some after) then
      .mergeCompleted
    else if c == after then .unchanged
    else .advanced

end Outcome

/-- The progress of one segment and the journal of it. -/
structure Tracker where
  segment : String
  /-- The cursor of the segment, if it has started. -/
  cursor : Option Cursor
  /-- Whether checkpoints with a wrong checksum are refused. -/
  verifyChecksums : Bool
  journal : Journal

namespace Tracker

/-- The name that trackers put into their journals. -/
def speaker : String := "ceptra_cursor::progress"

/-- Track a segment from a cursor on. -/
def start (segment : String) (cursor : Option Cursor) (config : Config) : Tracker :=
  ⟨segment, cursor, config.verifyChecksums, .start speaker config.retention config.level⟩

/-- Track a segment from its checkpoint on. -/
def restore (segment : String) (checkpoint : Checkpoint) (config : Config) :
    Except CheckpointFault Tracker := do
  let cursor ← checkpoint.restore config.verifyChecksums
  return start segment cursor config

/-- The tracker with another level of its journal. -/
def setLevel (t : Tracker) (level : Level) : Tracker :=
  { t with journal := t.journal.setLevel level }

/-! ### Changes -/

/-- The tracker with a new cursor, and the change in its journal. -/
def change (t : Tracker) (time : UInt64) (level : Level) (message : String)
    (cursor : Option Cursor) : Tracker :=
  { t with
    cursor
    journal := t.journal.record ⟨time, level, t.segment, message, cursor⟩ }

/-- Absorb the sibling segment that has the upper half. -/
def mergeWith (t : Tracker) (upper : Option Cursor) (time : UInt64) : Tracker :=
  let cursor := Cursor.merge t.cursor upper
  let message :=
    if Cursor.isMergeInProgress cursor then "segments merged"
    else "segments merged at a common position"
  t.change time .info message cursor

/-- Thread a position that has been read into the cursor. -/
def advance (t : Tracker) (position : Cursor) (time : UInt64) :
    Except CursorFault (Outcome × Tracker) := do
  let next ← Cursor.advanceFrom t.cursor position
  let outcome := Outcome.ofStep t.cursor next
  return (outcome, t.change time outcome.level outcome.message (some next))

/-- Lower the cursor to what a sibling has read as well. A segment that has not started stays so. -/
def reconcile (t : Tracker) (sibling : Cursor) (time : UInt64) : Except CursorFault Tracker :=
  match t.cursor with
  | none => .ok t
  | some c => do
    let lowered ← c.lowerBound sibling
    return t.change time .debug "cursor reconciled with sibling" (some lowered)

/-! ### Questions -/

/-- Whether entries up to a position still have to be read. -/
def requiresReplay (t : Tracker) (position : Cursor) : Except CursorFault Bool := do
  let covered ← Cursor.halfCovers t.cursor position
  return !covered

/-- How far the segment is behind `head`, if every part of it has started. -/
def lag (t : Tracker) (head : UInt64) : Except CursorFault (Option UInt64) := do
  let bound ← Cursor.floorOf t.cursor
  return bound.map fun p => Count.sub head p.number

/-- The number of the position at which a pending merge completes. -/
def mergePosition (t : Tracker) : Except CursorFault (Option UInt64) :=
  Cursor.mergePosition t.cursor

/-- Whether the segment has two halves that have not converged. -/
def isMergeInProgress (t : Tracker) : Bool := Cursor.isMergeInProgress t.cursor

/-- The cursor in its stored form. -/
def checkpoint (t : Tracker) : Checkpoint := .of t.cursor

end Tracker

end StreamProgress
