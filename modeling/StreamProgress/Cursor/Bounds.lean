import StreamProgress.Cursor.Basic

/-!
# Coverage and bounds

`covers` and `lowerBound` compare a cursor with another one. Both look at what the cursor
guarantees: a merged cursor has read what both of its halves have read, and a replay has read what
its second reading has come to, whatever was read before the reset.

`floor` and `ceiling` strip a cursor down to plain positions, the one that all its parts have
reached and the one that some part has reached. They look at halves and current progress only,
never at reset points, and an absent part has no position, so then there is none.
-/

namespace StreamProgress

namespace Cursor

/-! ### Coverage -/

mutual

/-- Whether a cursor has read everything up to another one. -/
def covers : Cursor → Cursor → Except CursorFault Bool
  | .plain p, other => do
    let q ← other.asPlain p.kind
    p.covers q
  | .replay _ none _, _ => .ok false
  | .replay _ (some mine) _, other =>
    match other.progress with
    | none => .ok true
    | some theirs => covers mine theirs
  | .merged lower upper _ _, other => do
    if ← halfCovers lower other then halfCovers upper other else return false

/-- Whether an optional cursor has read everything up to a cursor. An absent one has read nothing. -/
def halfCovers : Option Cursor → Cursor → Except CursorFault Bool
  | none, _ => .ok false
  | some c, other => covers c other

end

/-! ### The lower bound of two cursors -/

mutual

/-- The cursor lowered to what another one has read as well. -/
def lowerBound : Cursor → Cursor → Except CursorFault Cursor
  | .plain p, other => do
    let q ← other.asPlain p.kind
    let r ← p.meet q
    return .plain r
  | .replay reset none _, _ => .ok (startReplay reset none)
  | .replay reset (some mine) _, other =>
    match other.progress with
    | none => .ok (startReplay reset none)
    | some theirs => do
      let current ← lowerBound mine theirs
      return startReplay reset (some current)
  | .merged lower upper _ _, other => do
    let lower ← lowerHalf lower other
    let upper ← lowerHalf upper other
    match merge lower upper with
    | none => throw .emptyMerge
    | some c => return c

/-- An optional cursor lowered to what a cursor has read as well. -/
def lowerHalf : Option Cursor → Cursor → Except CursorFault (Option Cursor)
  | none, _ => .ok none
  | some c, other => do
    let c ← lowerBound c other
    return some c

end

/-! ### Positions of all parts -/

/-- Two optional positions combined. If one is absent so is the result. -/
def combine (op : Position → Position → Except CursorFault Position) :
    Option Position → Option Position → Except CursorFault (Option Position)
  | some p, some q => do
    let r ← op p q
    return some r
  | _, _ => .ok none

mutual

/-- The position that every part of a cursor has reached. -/
def floor : Cursor → Except CursorFault (Option Position)
  | .plain p => .ok (some p)
  | .replay _ current _ => floorOf current
  | .merged lower upper _ _ => do
    let lower ← floorOf lower
    let upper ← floorOf upper
    combine Position.meet lower upper

/-- The position that every part of an optional cursor has reached. -/
def floorOf : Option Cursor → Except CursorFault (Option Position)
  | none => .ok none
  | some c => floor c

end

mutual

/-- The position that the parts of a cursor have reached together. -/
def ceiling : Cursor → Except CursorFault (Option Position)
  | .plain p => .ok (some p)
  | .replay _ current _ => ceilingOf current
  | .merged lower upper _ _ => do
    let lower ← ceilingOf lower
    let upper ← ceilingOf upper
    combine Position.join lower upper

/-- The position that the parts of an optional cursor have reached together. -/
def ceilingOf : Option Cursor → Except CursorFault (Option Position)
  | none => .ok none
  | some c => ceiling c

end

end Cursor

end StreamProgress
