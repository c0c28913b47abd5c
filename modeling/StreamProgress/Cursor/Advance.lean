import StreamProgress.Cursor.Bounds

/-!
# Advancing a cursor

`advance` threads a position that has been read into the cursor of a segment. A plain cursor is
replaced. The cursors that wrap others advance by rules of their own:

* **Merged.** Each half moves for itself. An absent half starts at the new position, a plain half
  takes the least position that covers both, and a wrapping half advances by its own rule unless
  it covers the position already, so that no half is ever taken back. When both halves have moved
  and are equal now, the merge is complete and the cursor is what both are.
* **Replay.** While the position had been read before the reset, the second reading is simply at
  that position. A position that had not been read raises the reset point to include it, or, once
  it covers everything that the reset point had reached, ends the replay.

`upperBound` is the advance of one cursor by another in a comparison: it joins where `advance`
replaces, and equal halves collapse whether or not both have moved.

## Implementation notes

A replay advances by advancing and raising its reset point, so `replayStep` is given these two as
functions: `upperBound` and `advance` of a replay are then the same step at different arguments,
and both recurse on the cursor alone.
-/

namespace StreamProgress

namespace Cursor

/-- Whether a position covers everything that a reset point had reached. -/
def reaches (reset position : Cursor) : Except CursorFault Bool := do
  match ← reset.ceiling with
  | none => return true
  | some bound => position.covers (.plain bound)

/-- One step of a replay to a position, given how its reset point is raised and advanced. -/
def replayStep (reset : Cursor) (raise advance : Cursor → Except CursorFault Cursor)
    (position : Cursor) : Except CursorFault Cursor := do
  let reached ← reaches reset position
  if ← reset.covers position then
    return .replay reset (some position) true
  else if reached then
    advance position
  else
    let raised ← raise position
    let current ← advance position
    return .replay raised (some current) false

/-- A wrapping half, moved by its own rule unless it covers the position already. -/
def keepOr (half : Cursor) (advance : Cursor → Except CursorFault Cursor) (position : Cursor) :
    Except CursorFault Cursor := do
  if ← half.covers position then return half else advance position

mutual

/-- The cursor of a segment after a position has been read. -/
def advance : Cursor → Cursor → Except CursorFault Cursor
  | .plain _, position => .ok position
  | .replay reset _ _, position => replayStep reset (upperBound reset) (advance reset) position
  | .merged lower upper _ _, position => do
    let newLower ← advanceHalf lower position
    let newUpper ← advanceHalf upper position
    let lowerAdvanced := lower != some newLower
    let upperAdvanced := upper != some newUpper
    if lowerAdvanced && upperAdvanced && newLower == newUpper then return newLower
    else return .merged (some newLower) (some newUpper) lowerAdvanced upperAdvanced

/-- The cursor raised to what another one has read as well. -/
def upperBound : Cursor → Cursor → Except CursorFault Cursor
  | .plain p, other => do
    let q ← other.asPlain p.kind
    let r ← p.join q
    return .plain r
  | .replay reset current replaying, other =>
    match other.progress with
    | none => .ok (.replay reset current replaying)
    | some theirs => replayStep reset (upperBound reset) (advance reset) theirs
  | .merged lower upper _ _, other => do
    let lower ← advanceHalf lower other
    let upper ← advanceHalf upper other
    return mergeSome lower upper

/-- One half of a merged cursor moved towards a position. -/
def advanceHalf : Option Cursor → Cursor → Except CursorFault Cursor
  | none, position => .ok position
  | some (.plain p), position => upperBound (.plain p) position
  | some c, position => keepOr c (advance c) position

end

/-- The cursor of a segment that may not have started, after a position has been read. -/
def advanceFrom : Option Cursor → Cursor → Except CursorFault Cursor
  | none, position => .ok position
  | some c, position => c.advance position

/-- The cursor that a segment starts from after a reset. Without a reset point there is nothing to
read again. A segment that was reset while it was reading again keeps its first reset point. If
the start covers what the reset point guarantees, no second reading is needed. -/
def reset (point start : Option Cursor) : Except CursorFault (Option Cursor) :=
  match point with
  | none => .ok start
  | some point => do
    let point := match point with
      | .replay nested _ _ => nested
      | other => other
    match start with
    | none => return some (startReplay point none)
    | some start =>
      match ← point.floor with
      | none => return some (startReplay point (some start))
      | some bound =>
        if ← start.covers (.plain bound) then return some start
        else return some (startReplay point (some start))

end Cursor

end StreamProgress
