import StreamProgress.Cursor.Basic
import StreamProgress.Json.Printer

/-!
# The written form of a cursor

A cursor is written as a tagged object: `type` holds the name of its kind, and the other members
hold its fields. The flags are not written.

Reading accepts more than writing produces. The members may stand in any order with others between
them, absent parts may be left out, and a cursor may be an array of the tag and the fields in
their order. Inside a value the tag may also be the number of the kind.

## Two stages

The tag selects the fields, but it may stand behind them. So a cursor is read in two stages. First
the bracket is read as a whole, of which only the tag is judged, and it is judged as soon as it is
met; the fields are kept as plain values. Then the fields are taken apart, in the order in which
they stand. Nested cursors are taken from values that have been read already. The two stages decide
which fault of a document wins: a wrong tag wins over anything behind it, a fault in the brackets
of the cursor over any wrong field, and a wrong field over what follows the cursor.

## Main definitions

* `Cursor.toJson` — the written form
* `Cursor.ofJson` — a cursor from a value
* `Cursor.reader` — a cursor from text
* `Cursor.parse`, `Cursor.parseNullable` — the cursor of a whole document
-/

namespace StreamProgress

namespace Cursor

open Json (Mismatch Fault Reader)

/-! ### Writing -/

/-- Partition offsets, in the order of their names. -/
def offsetsToJson (offsets : Offsets) : Json :=
  .object (offsets.entries.map fun e => (e.1, .count e.2))

/-- The tag of a cursor as a member. -/
def tag (kind : Kind) : String × Json := ("type", .string kind.name)

mutual

/-- The written form of a cursor. -/
def toJson : Cursor → Json
  | .plain (.sequence index) => .object [tag .sequence, ("index", .count index)]
  | .plain (.partitions offsets) =>
    .object [tag .partitionOffsets, ("offsets", offsetsToJson offsets)]
  | .replay reset current _ =>
    .object [tag .replay, ("token_at_reset", toJson reset), ("current", halfToJson current)]
  | .merged lower upper _ _ =>
    .object [tag .merged, ("lower_segment", halfToJson lower), ("upper_segment", halfToJson upper)]

/-- The written form of an optional cursor. -/
def halfToJson : Option Cursor → Json
  | none => .null
  | some c => toJson c

end

/-- The text of a cursor. -/
def text (c : Cursor) : String := c.toJson.text

/-! ### Fields of plain cursors -/

/-- A 64-bit count. -/
def countOfJson (expected : String) : Json → Except Mismatch UInt64
  | .number (.natural n) => .ok n
  | .number (.negative n) => .error (.invalidValue (.integer (Int.negSucc n)) expected)
  | v => .error (.invalidType v.found expected)

/-- Partition offsets; of repeated names the last one counts. -/
def offsetsOfMembers (offsets : Offsets) : List (String × Json) → Except Mismatch Offsets
  | [] => .ok offsets
  | (name, v) :: members =>
    match countOfJson "u64" v with
    | .error e => .error e
    | .ok n => offsetsOfMembers (offsets.put name n) members

/-- Partition offsets from a value. -/
def offsetsOfJson : Json → Except Mismatch Offsets
  | .object members => offsetsOfMembers .empty members
  | v => .error (.invalidType v.found "a map")

/-- The one field of a plain cursor among the members, which may hold others that are ignored. -/
def soleField {α : Type} (name : String) (ofJson : Json → Except Mismatch α) (found : Option α) :
    List (String × Json) → Except Mismatch α
  | [] => match found with
    | some a => .ok a
    | none => .error (.missingField name)
  | (n, v) :: members =>
    if n = name then
      match found with
      | some _ => .error (.duplicateField name)
      | none =>
        match ofJson v with
        | .error e => .error e
        | .ok a => soleField name ofJson (some a) members
    else soleField name ofJson found members

/-- The one field of a plain cursor among the items of an array. -/
def soleItem {α : Type} (shape : String) (ofJson : Json → Except Mismatch α) :
    List Json → Except Mismatch α
  | [] => .error (.invalidLength 0 (shape ++ " with 1 element"))
  | v :: items =>
    match ofJson v with
    | .error e => .error e
    | .ok a =>
      if items.isEmpty then .ok a
      else .error (.invalidLength (items.length + 1) "1 element in sequence")

/-- The fault of an array with more items than the two fields of a wrapping cursor. -/
def tooManyItems (length : Nat) : Mismatch := .invalidLength length "2 elements in sequence"

/-- The tag among the members of a nested cursor. -/
def tagAmong (found : Option Kind) : List (String × Json) → Except Mismatch Kind
  | [] => match found with
    | some kind => .ok kind
    | none => .error (.missingField "type")
  | (name, v) :: members =>
    if name = "type" then
      match found with
      | some _ => .error (.duplicateField "type")
      | none =>
        match Kind.vocabulary.tagOfJson v with
        | .error e => .error e
        | .ok kind => tagAmong (some kind) members
    else tagAmong found members

/-- A merged cursor that was read; two absent halves are refused. -/
def ofReadHalves (lower upper : Option Cursor) : Except Mismatch Cursor :=
  match ofHalves lower upper with
  | .ok c => .ok c
  | .error _ => .error .emptyMerge

/-- The cursor of a tag and the members of its bracket, given how those of a wrapping cursor are
read. -/
def ofMembersWith (members : List (String × Json)) (replay merged : Unit → Except Mismatch Cursor) :
    Kind → Except Mismatch Cursor
  | .sequence => do
    let index ← soleField "index" (countOfJson "u64") none members
    return sequence index
  | .partitionOffsets => do
    let offsets ← soleField "offsets" offsetsOfJson none members
    return partitions offsets
  | .replay => replay ()
  | .merged => merged ()

/-- The cursor of a tag and the items behind it, given how those of a wrapping cursor are read. -/
def ofItemsWith (items : List Json) (replay merged : Unit → Except Mismatch Cursor) :
    Kind → Except Mismatch Cursor
  | .sequence => do
    let index ← soleItem "struct SequenceCursor" (countOfJson "u64") items
    return sequence index
  | .partitionOffsets => do
    let offsets ← soleItem "struct PartitionOffsetCursor" offsetsOfJson items
    return partitions offsets
  | .replay => replay ()
  | .merged => merged ()

/-! ### From values -/

/-- What a value was read as, or nothing for `null`. -/
def unlessNull (v : Json) (read : Except Mismatch Cursor) : Except Mismatch (Option Cursor) :=
  if v.isNull then .ok none
  else
    match read with
    | .error e => .error e
    | .ok c => .ok (some c)

mutual

/-- A cursor from a value. -/
def ofJson : Json → Except Mismatch Cursor
  | .object members =>
    match tagAmong none members with
    | .error e => .error e
    | .ok kind =>
      ofMembersWith members (fun _ => replayOfMembers none none members)
        (fun _ => mergedOfMembers none none members) kind
  | .array [] => .error (.missingField "type")
  | .array (v :: items) =>
    match Kind.vocabulary.tagOfJson v with
    | .error e => .error e
    | .ok kind =>
      ofItemsWith items (fun _ => replayOfItems items) (fun _ => mergedOfItems items) kind
  | v => .error (.invalidType v.found "internally tagged enum Cursor")

/-- A replay from its members, given the fields that have been met. -/
def replayOfMembers (reset : Option Cursor) (current : Option (Option Cursor)) :
    List (String × Json) → Except Mismatch Cursor
  | [] => match reset with
    | none => .error (.missingField "token_at_reset")
    | some reset => .ok (startReplay reset (current.getD none))
  | (name, v) :: members =>
    if name = "token_at_reset" then
      if reset.isSome then .error (.duplicateField name)
      else
        match ofJson v with
        | .error e => .error e
        | .ok c => replayOfMembers (some c) current members
    else if name = "current" then
      if current.isSome then .error (.duplicateField name)
      else
        match unlessNull v (ofJson v) with
        | .error e => .error e
        | .ok c => replayOfMembers reset (some c) members
    else replayOfMembers reset current members

/-- A merged cursor from its members, given the fields that have been met. -/
def mergedOfMembers (lower upper : Option (Option Cursor)) :
    List (String × Json) → Except Mismatch Cursor
  | [] => ofReadHalves (lower.getD none) (upper.getD none)
  | (name, v) :: members =>
    if name = "lower_segment" then
      if lower.isSome then .error (.duplicateField name)
      else
        match unlessNull v (ofJson v) with
        | .error e => .error e
        | .ok c => mergedOfMembers (some c) upper members
    else if name = "upper_segment" then
      if upper.isSome then .error (.duplicateField name)
      else
        match unlessNull v (ofJson v) with
        | .error e => .error e
        | .ok c => mergedOfMembers lower (some c) members
    else mergedOfMembers lower upper members

/-- A replay from the items behind its tag. -/
def replayOfItems : List Json → Except Mismatch Cursor
  | [] => .error (.invalidLength 0 "struct ReplayCursor with 2 elements")
  | [v] => do
    let reset ← ofJson v
    return startReplay reset none
  | v :: w :: items => do
    let reset ← ofJson v
    let current ← unlessNull w (ofJson w)
    if items.isEmpty then return startReplay reset current
    else throw (tooManyItems (items.length + 2))

/-- A merged cursor from the items behind its tag. -/
def mergedOfItems : List Json → Except Mismatch Cursor
  | [] => ofReadHalves none none
  | [v] => do
    let lower ← unlessNull v (ofJson v)
    ofReadHalves lower none
  | v :: w :: items => do
    let lower ← unlessNull v (ofJson v)
    let upper ← unlessNull w (ofJson w)
    if items.isEmpty then ofReadHalves lower upper
    else throw (tooManyItems (items.length + 2))

end

/-! ### From text -/

/-- What has been read of the bracket of a cursor: its tag, and its fields from the last one. -/
structure Draft (β : Type) where
  kind : Option Kind
  fields : List β

/-- One member of the bracket. The tag is judged at once, other members are kept as values. A second
tag is refused behind its name; blanks and a closing brace that follow count as read then. -/
def draftMember (room nesting : Nat) (draft : Draft (String × Json)) (name : String) :
    Reader (Draft (String × Json)) := fun s =>
  if name = "type" then
    if draft.kind.isSome then
      .error (.mismatch (.duplicateField "type") (some (Json.pastClosing '\x7d' s)))
    else do
      let (kind, s) ← Json.afterColon Kind.vocabulary.tagReader s
      return ({ draft with kind := some kind }, s)
  else do
    let (fields, s) ← Json.pushMember (Json.readValue room nesting) draft.fields name s
    return ({ draft with fields }, s)

/-- One item of the bracket. The first one is the tag. -/
def draftItem (room nesting : Nat) (draft : Draft Json) : Reader (Draft Json) := fun s =>
  if draft.kind.isNone then do
    let (kind, s) ← Kind.vocabulary.tagReader s
    return ({ draft with kind := some kind }, s)
  else do
    let (fields, s) ← Json.pushItem (Json.readValue room nesting) draft.fields s
    return ({ draft with fields }, s)

/-- The cursor of a tag and the members of its bracket. -/
def ofMembers (members : List (String × Json)) : Kind → Except Mismatch Cursor :=
  ofMembersWith members (fun _ => replayOfMembers none none members)
    (fun _ => mergedOfMembers none none members)

/-- The cursor of a tag and the items behind it. -/
def ofItems (items : List Json) : Kind → Except Mismatch Cursor :=
  ofItemsWith items (fun _ => replayOfItems items) (fun _ => mergedOfItems items)

/-- The cursor of a bracket that has been read, if it had a tag, with the text behind it. -/
def finish {β : Type} (draft : Draft β) (decode : List β → Kind → Except Mismatch Cursor) :
    Reader Cursor := fun s =>
  match draft.kind with
  | none => .error (.mismatch (.missingField "type") (some s))
  | some kind =>
    match decode draft.fields.reverse kind with
    | .error e => .error (.mismatch e none)
    | .ok c => .ok (c, s)

/-- A cursor at the front of a text, with at most `nesting` brackets inside each other. -/
def reader (room nesting : Nat) : Reader Cursor := fun s =>
  match Json.skipBlank s with
  | '{' :: s =>
    match nesting with
    | 0 => .error .malformed
    | nesting + 1 => do
      let (draft, s) ← Json.readMembers (draftMember room nesting) room ⟨none, []⟩ s
      finish draft ofMembers s
  | '[' :: s =>
    match nesting with
    | 0 => .error .malformed
    | nesting + 1 => do
      let (draft, s) ← Json.readItems (draftItem room nesting) room ⟨none, []⟩ s
      finish draft ofItems s
  | s => Json.refuse "internally tagged enum Cursor" s

/-- The cursor of a whole document. -/
def parse (text : String) : Except Fault Cursor :=
  let s := text.toList
  Json.readDocument (reader (Json.roomFor s) Json.maxNesting) s

/-- The cursor of a whole document, which is `null` for a segment that has not started. -/
def parseNullable (text : String) : Except Fault (Option Cursor) :=
  let s := text.toList
  Json.readDocument (Json.readNullable (reader (Json.roomFor s) Json.maxNesting)) s

end Cursor

end StreamProgress
