import StreamProgress.Cursor.Position

/-!
# Cursors

A `Cursor` is how far one segment of a stream has been read. A plain cursor is a position. Two
kinds wrap other cursors:

* a **replay** belongs to a segment that was reset and reads again what it had read before. It
  keeps the point that had been reached at the reset, and how far the second reading has come;
* a **merged** cursor belongs to a segment put together from two halves that were split earlier.
  Each half keeps its own cursor until both have reached one position.

A segment that has not started has no cursor, so absence is `none` and no cursor of its own.

## Flags

A replay carries `replaying`, whether the entry that produced it had been read before the reset,
and a merged cursor carries which of its halves the last advance moved. The flags report the last
step. They are no part of the progress: `agrees` does not look at them, they are not written, and
a cursor that is read has them at their defaults.

## Empty merges

A merged cursor with two absent halves would be no progress at all. `Cursor.merge` never builds
one and reading refuses it, but the type does not exclude it: the operations are total, and what
they do there is part of what they are.
-/

namespace StreamProgress

/-- How far a segment has been read. -/
inductive Cursor where
  /-- A position. -/
  | plain (position : Position)
  /-- A second reading up to the point `reset`, which has come to `current`. -/
  | replay (reset : Cursor) (current : Option Cursor) (replaying : Bool)
  /-- Two halves that have not converged. -/
  | merged (lower upper : Option Cursor) (lowerAdvanced upperAdvanced : Bool)

namespace Cursor

instance : Inhabited Cursor := ⟨.plain (.sequence 0)⟩

/-- A cursor at an index. -/
def sequence (index : UInt64) : Cursor := .plain (.sequence index)

/-- A cursor at partition offsets. -/
def partitions (offsets : Offsets) : Cursor := .plain (.partitions offsets)

/-- The kind of a cursor. -/
def kind : Cursor → Kind
  | .plain p => p.kind
  | .replay _ _ _ => .replay
  | .merged _ _ _ _ => .merged

/-- The position that a cursor is, where one of kind `expected` is needed. -/
def asPlain (expected : Kind) : Cursor → Except CursorFault Position
  | .plain p => .ok p
  | c => .error (.incompatible expected c.kind)

@[simp] theorem asPlain_plain (expected : Kind) (p : Position) :
    (plain p).asPlain expected = .ok p := rfl

/-- The progress that a cursor offers to a replay: of another replay, how far it has come. -/
def progress : Cursor → Option Cursor
  | .replay _ current _ => current
  | c => some c

@[simp] theorem progress_plain (p : Position) : (plain p).progress = some (plain p) := rfl

/-! ### Equal progress -/

mutual

/-- Whether two cursors are equal but for their flags. -/
def agrees : Cursor → Cursor → Bool
  | .plain p, .plain q => p = q
  | .replay reset current _, .replay reset' current' _ =>
    agrees reset reset' && halvesAgree current current'
  | .merged lower upper _ _, .merged lower' upper' _ _ =>
    halvesAgree lower lower' && halvesAgree upper upper'
  | _, _ => false

/-- Whether two optional cursors are both absent, or both present and equal but for flags. -/
def halvesAgree : Option Cursor → Option Cursor → Bool
  | none, none => true
  | some c, some d => agrees c d
  | _, _ => false

end

/-- Equality of cursors is equality of progress. -/
instance : BEq Cursor := ⟨agrees⟩

theorem halvesAgree_eq (c d : Option Cursor) : halvesAgree c d = (c == d) := by
  cases c <;> cases d <;> rfl

/-! ### Building cursors -/

/-- A second reading that has not reached its reset point. -/
def startReplay (reset : Cursor) (current : Option Cursor) : Cursor := .replay reset current true

/-- A merged cursor of which no half has just moved. -/
def pairHalves (lower upper : Option Cursor) : Cursor := .merged lower upper false false

/-- The merged cursor of two halves of which at least one is present. -/
def ofHalves (lower upper : Option Cursor) : Except CursorFault Cursor :=
  if lower.isNone && upper.isNone then .error .emptyMerge else .ok (pairHalves lower upper)

/-- The cursor of two halves put together. Equal halves are that cursor, two absent halves are no
cursor, and anything else stays merged. -/
def merge : Option Cursor → Option Cursor → Option Cursor
  | none, none => none
  | some lower, some upper =>
    if lower == upper then some lower else some (pairHalves (some lower) (some upper))
  | lower, upper => some (pairHalves lower upper)

/-- The merged cursor of two present halves, or the one cursor that both are. -/
def mergeSome (lower upper : Cursor) : Cursor :=
  if lower == upper then lower else pairHalves (some lower) (some upper)

theorem merge_some_some (lower upper : Cursor) :
    merge (some lower) (some upper) = some (mergeSome lower upper) := by
  simp only [merge, mergeSome]
  split <;> rfl

end Cursor

end StreamProgress
