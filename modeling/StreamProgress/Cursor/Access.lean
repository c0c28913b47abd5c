import StreamProgress.Cursor.Bounds

/-!
# Looking inside a cursor

`unwrap` looks for a part of a given kind by following the progress of a cursor: from a replay to
what it has come to, and from a merged cursor to the half that the last advance moved, the lower
half first. If no half has moved, nothing is found below a merged cursor, even where an unmoved
half has the kind.
-/

namespace StreamProgress

namespace Cursor

mutual

/-- The outermost part of a kind on the way that the progress of a cursor takes. -/
def unwrap (kind : Kind) : Cursor → Option Cursor
  | .plain p => if p.kind = kind then some (.plain p) else none
  | .replay reset current replaying =>
    if kind = .replay then some (.replay reset current replaying) else unwrapHalf kind current
  | .merged lower upper lowerAdvanced upperAdvanced =>
    if kind = .merged then some (.merged lower upper lowerAdvanced upperAdvanced)
    else if lowerAdvanced then unwrapHalf kind lower
    else if upperAdvanced then unwrapHalf kind upper
    else none

/-- The outermost part of a kind in an optional cursor. -/
def unwrapHalf (kind : Kind) : Option Cursor → Option Cursor
  | none => none
  | some c => unwrap kind c

end

/-- Whether a cursor is, or wraps, a replay that is still reading what had been read before. -/
def isReplay (c : Option Cursor) : Bool :=
  match unwrapHalf .replay c with
  | some (.replay _ _ replaying) => replaying
  | _ => false

/-- Whether a cursor is, or wraps, two halves that have not converged. -/
def isMergeInProgress (c : Option Cursor) : Bool := (unwrapHalf .merged c).isSome

/-- The number of the position at which a pending merge completes, if it has one. -/
def mergePosition (c : Option Cursor) : Except CursorFault (Option UInt64) :=
  match unwrapHalf .merged c with
  | none => .ok none
  | some found => do
    let bound ← found.ceiling
    return bound.map Position.number

/-- The number of a cursor's position. Two halves that have not converged have none. -/
def number : Cursor → Option UInt64
  | .plain p => some p.number
  | .replay _ none _ => none
  | .replay _ (some c) _ => number c
  | .merged _ _ _ _ => none

end Cursor

end StreamProgress
