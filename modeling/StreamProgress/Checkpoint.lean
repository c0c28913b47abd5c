import StreamProgress.Cursor.Written
import StreamProgress.Digest.Hex
import StreamProgress.Digest.Sha256
import StreamProgress.Json.Skip

/-!
# Checkpoints

A checkpoint is the cursor of a segment as it is stored: the text of the cursor, the kind of the
cursor, and a checksum of the text. A segment that has not started has the text `null` and no
kind. Taking a checkpoint always succeeds. Restoring the cursor asks, in this order, that the
checksum is that of the text (if checksums are verified at all), that the text is that of an
optional cursor, and that its kind is the recorded one.

Checkpoints are themselves written as JSON, compactly, and read from an object or from the array
of the three fields.

## Main definitions

* `Checkpoint.of`, `Checkpoint.restore` — from a cursor and back
* `Checkpoint.text`, `Checkpoint.parse` — the written form
* `Checkpoint.ofJson` — a checkpoint from a value that has been read
-/

namespace StreamProgress

open Json (Mismatch Fault Reader)

/-- The stored form of a cursor. -/
structure Checkpoint where
  /-- The kind of the cursor, if there is one. -/
  kind : Option Kind
  /-- The checksum of the payload. -/
  checksum : String
  /-- The text of the cursor, or `null`. -/
  payload : String
  deriving DecidableEq, Repr

/-- Why a checkpoint cannot be restored. -/
inductive CheckpointFault where
  /-- The recorded checksum is not that of the payload. -/
  | checksumMismatch (recorded computed : String)
  /-- The payload is no optional cursor. -/
  | unreadable (fault : Fault)
  /-- The payload is a cursor of another kind than recorded. -/
  | kindMismatch (recorded found : Option Kind)
  deriving DecidableEq, Repr

namespace CheckpointFault

/-- The name of an optional kind in a message. -/
def kindName : Option Kind → String
  | none => "none"
  | some kind => kind.name

/-- The wording of a fault. -/
def message : CheckpointFault → String
  | .checksumMismatch recorded computed =>
    "cursor checksum mismatch (recorded " ++ recorded ++ ", computed " ++ computed ++ ")"
  | .unreadable fault => "failed to deserialize cursor: " ++ fault.message
  | .kindMismatch recorded found =>
    "persisted cursor kind " ++ kindName recorded ++ " does not match payload kind " ++
      kindName found

end CheckpointFault

namespace Checkpoint

/-! ### Taking and restoring -/

/-- The checksum of a payload: the digest of its UTF-8 bytes. -/
def checksumOf (payload : String) : String :=
  Hex.ofBytes (Sha256.digest payload.toUTF8.data.toList)

/-- The checkpoint of an optional cursor. -/
def of (c : Option Cursor) : Checkpoint :=
  let payload := (Cursor.halfToJson c).text
  ⟨c.map Cursor.kind, checksumOf payload, payload⟩

/-- The optional cursor of a payload that is trusted to be the recorded one. -/
def decode (r : Checkpoint) : Except CheckpointFault (Option Cursor) :=
  match Cursor.parseNullable r.payload with
  | .error fault => .error (.unreadable fault)
  | .ok c =>
    if c.map Cursor.kind = r.kind then .ok c
    else .error (.kindMismatch r.kind (c.map Cursor.kind))

/-- The optional cursor of a checkpoint. -/
def restore (verify : Bool) (r : Checkpoint) : Except CheckpointFault (Option Cursor) :=
  if verify && checksumOf r.payload != r.checksum then
    .error (.checksumMismatch r.checksum (checksumOf r.payload))
  else r.decode

/-! ### The written form -/

/-- A checkpoint as a value. An absent kind is left out. -/
def toJson (r : Checkpoint) : Json :=
  .object <|
    (match r.kind with | none => [] | some kind => [("kind", .string kind.name)]) ++
      [("checksum", .string r.checksum), ("payload", .string r.payload)]

/-- The text of a checkpoint. -/
def text (r : Checkpoint) : String := r.toJson.text

/-- The name of the form in messages. -/
def shape : String := "struct PersistedCursor"

/-- The fields of a checkpoint that have been met. -/
structure Draft where
  kind : Option (Option Kind) := none
  checksum : Option String := none
  payload : Option String := none

/-- The checkpoint of the fields that have been met. -/
def Draft.finish (draft : Draft) : Except Mismatch Checkpoint :=
  match draft.checksum, draft.payload with
  | none, _ => .error (.missingField "checksum")
  | some _, none => .error (.missingField "payload")
  | some checksum, some payload => .ok ⟨draft.kind.getD none, checksum, payload⟩

/-- The fault of an array that breaks off before its item `n`. -/
def tooShort (n : Nat) : Mismatch := .invalidLength n (shape ++ " with 3 elements")

/-! ### From values -/

/-- A string from a value. -/
def stringOfJson : Json → Except Mismatch String
  | .string s => .ok s
  | v => .error (.invalidType v.found "a string")

/-- An optional kind from a value. -/
def kindOfJson (v : Json) : Except Mismatch (Option Kind) :=
  if v.isNull then .ok none
  else do
    let kind ← Kind.vocabulary.ofJson v
    return some kind

/-- A field that may be missing. -/
def fieldOfJson {α : Type} (ofJson : Json → Except Mismatch α) :
    Option Json → Except Mismatch (Option α)
  | none => .ok none
  | some v => do
    let a ← ofJson v
    return some a

/-- A checkpoint from a value. The members of an object are those of a map, so the last of several
members with one name counts, and the fields are judged in ascending order of their names. -/
def ofJson : Json → Except Mismatch Checkpoint
  | .object members => do
    let fields := NameMap.ofPairs members
    let checksum ← fieldOfJson stringOfJson (fields.get? "checksum")
    let kind ← fieldOfJson kindOfJson (fields.get? "kind")
    let payload ← fieldOfJson stringOfJson (fields.get? "payload")
    Draft.finish ⟨kind, checksum, payload⟩
  | .array [] => .error (tooShort 1)
  | .array [kind] => do
    let _ ← kindOfJson kind
    throw (tooShort 1)
  | .array [kind, checksum] => do
    let _ ← kindOfJson kind
    let _ ← stringOfJson checksum
    throw (tooShort 2)
  | .array (kind :: checksum :: payload :: items) => do
    let kind ← kindOfJson kind
    let checksum ← stringOfJson checksum
    let payload ← stringOfJson payload
    if items.isEmpty then return ⟨kind, checksum, payload⟩
    else throw (.invalidLength (items.length + 3) "fewer elements in array")
  | v => .error (.invalidType v.found shape)

/-! ### From text -/

/-- A string in the text. -/
def stringReader : Reader String := Json.readString "a string"

/-- The fault of a member that stands twice. -/
def repeated {α : Type} (name : String) : Reader α := fun s =>
  .error (.mismatch (.duplicateField name) (some (Json.pastClosing '\x7d' s)))

/-- One member of a checkpoint. Members with other names are passed over. -/
def member (room : Nat) (draft : Draft) (name : String) : Reader Draft := fun s =>
  if name = "kind" then
    if draft.kind.isSome then repeated name s
    else do
      let (kind, s) ← Json.afterColon (Json.readNullable Kind.vocabulary.reader) s
      return ({ draft with kind := some kind }, s)
  else if name = "checksum" then
    if draft.checksum.isSome then repeated name s
    else do
      let (checksum, s) ← Json.afterColon stringReader s
      return ({ draft with checksum := some checksum }, s)
  else if name = "payload" then
    if draft.payload.isSome then repeated name s
    else do
      let (payload, s) ← Json.afterColon stringReader s
      return ({ draft with payload := some payload }, s)
  else do
    let (_, s) ← Json.afterColon (Json.Skip.toReader (Json.Skip.value room room) ()) s
    return (draft, s)

/-- One item of a checkpoint that is written as an array. -/
def item (draft : Draft) : Reader Draft := fun s =>
  if draft.kind.isNone then do
    let (kind, s) ← Json.readNullable Kind.vocabulary.reader s
    return ({ draft with kind := some kind }, s)
  else if draft.checksum.isNone then do
    let (checksum, s) ← stringReader s
    return ({ draft with checksum := some checksum }, s)
  else if draft.payload.isNone then do
    let (payload, s) ← stringReader s
    return ({ draft with payload := some payload }, s)
  else .error .malformed

/-- The checkpoint of an array whose items have been met. -/
def Draft.finishItems (draft : Draft) : Except Mismatch Checkpoint :=
  match draft.checksum, draft.payload with
  | none, _ => .error (tooShort 1)
  | some _, none => .error (tooShort 2)
  | some checksum, some payload => .ok ⟨draft.kind.getD none, checksum, payload⟩

/-- The checkpoint of a bracket that has been read. -/
def finished (result : Except Mismatch Checkpoint) (s : List Char) :
    Except Fault (Checkpoint × List Char) :=
  match result with
  | .error e => .error (.mismatch e (some s))
  | .ok r => .ok (r, s)

/-- A checkpoint in the text. -/
def reader (room : Nat) : Reader Checkpoint := fun s =>
  match Json.skipBlank s with
  | '{' :: s => do
    let (draft, s) ← Json.readMembers (member room) room {} s
    finished draft.finish s
  | '[' :: s => do
    let (draft, s) ← Json.readItems item room {} s
    finished draft.finishItems s
  | s => Json.refuse shape s

/-- The checkpoint of a whole document. -/
def parse (text : String) : Except Fault Checkpoint :=
  let s := text.toList
  Json.readDocument (reader (Json.roomFor s)) s

end Checkpoint

end StreamProgress
