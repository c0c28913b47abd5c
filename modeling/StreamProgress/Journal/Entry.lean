import StreamProgress.Cursor.Written
import StreamProgress.Journal.Level

/-!
# Journal entries

An entry says what happened to the cursor of a segment. It is data; the journal that records it
writes it as one line of JSON, together with the name of the module that the journal speaks for.
-/

namespace StreamProgress

/-- One thing that happened to a segment. -/
structure Entry where
  /-- When it happened, in milliseconds. -/
  time : UInt64
  level : Level
  segment : String
  message : String
  /-- The cursor that the segment has since then, if it has one. -/
  cursor : Option Cursor

namespace Entry

/-- The entry as an object. An absent cursor is left out. -/
def toJson (speaker : String) (e : Entry) : Json :=
  .object <|
    [("ts", .count e.time), ("level", .string e.level.name), ("module", .string speaker),
      ("segment", .string e.segment), ("message", .string e.message)] ++
      (match e.cursor with | none => [] | some c => [("cursor", c.toJson)])

/-- The line of an entry in the journal of a module. -/
def line (speaker : String) (e : Entry) : String := (e.toJson speaker).text

end Entry

end StreamProgress
