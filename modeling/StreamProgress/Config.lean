import StreamProgress.Cursor.Written
import StreamProgress.Files
import StreamProgress.Journal.Basic

/-!
# Configuration

How a tracker keeps its journal and whether it verifies the checksums of checkpoints. A
configuration is read from a JSON object in which every field is optional. It is refused, in this
order, if it is no object, if a field is unknown or ill-typed, and if a limit is zero.

The object is read as a map: of repeated names the last one counts, and the fields are judged in
ascending order of their names.

## Main definitions

* `Config.ofJson` — a configuration from a value
* `Config.load` — a configuration from a file
-/

namespace StreamProgress

open Json (Mismatch Fault)

/-- How progress is tracked. -/
structure Config where
  /-- The level of the journal. -/
  level : Level := .info
  /-- The size that a journal file should not exceed. -/
  maxBytes : UInt64 := 1048576
  /-- How many archived journal files are kept. -/
  maxFiles : UInt64 := 4
  /-- Whether checkpoints with a wrong checksum are refused. -/
  verifyChecksums : Bool := true
  deriving DecidableEq, Repr

/-- What a configuration may not be although its fields are well-typed. -/
inductive Config.Invalid where
  | notAnObject
  | zeroMaxBytes
  | zeroMaxFiles
  deriving DecidableEq, Repr

/-- Why there is no configuration. -/
inductive ConfigFault where
  /-- The file cannot be read. -/
  | unreadable (path : String) (reason : ReadFault)
  /-- The file is no JSON. -/
  | unparsable (path : String) (fault : Fault)
  /-- A field is unknown or ill-typed. -/
  | mismatch (cause : Mismatch)
  /-- The values of the fields are refused. -/
  | invalid (reason : Config.Invalid)
  deriving DecidableEq, Repr

namespace Config

/-- The wording of a refusal. -/
def Invalid.message : Invalid → String
  | .notAnObject => "cursor config must be a JSON object"
  | .zeroMaxBytes => "log_max_bytes must be greater than zero"
  | .zeroMaxFiles => "log_max_files must be greater than zero"

/-- The names of the fields. -/
def fieldNames : List String := ["log_level", "log_max_bytes", "log_max_files", "verify_checksums"]

/-- A truth value. -/
def boolOfJson : Json → Except Mismatch Bool
  | .bool b => .ok b
  | v => .error (.invalidType v.found "a boolean")

/-- A configuration with one more field set. -/
def setField (config : Config) (name : String) (v : Json) : Except Mismatch Config :=
  if name = "log_level" then do
    let level ← Level.vocabulary.ofJson v
    return { config with level }
  else if name = "log_max_bytes" then do
    let maxBytes ← Cursor.countOfJson "usize" v
    return { config with maxBytes }
  else if name = "log_max_files" then do
    let maxFiles ← Cursor.countOfJson "usize" v
    return { config with maxFiles }
  else if name = "verify_checksums" then do
    let verifyChecksums ← boolOfJson v
    return { config with verifyChecksums }
  else throw (.unknownField name fieldNames)

/-- The configuration with the fields set that a map lists. -/
def ofFields (fields : NameMap Json) : Except Mismatch Config :=
  fields.entries.foldlM (fun config e => setField config e.1 e.2) {}

/-- The configuration, if its limits are not zero. -/
def validate (config : Config) : Except Invalid Config :=
  if config.maxBytes = 0 then .error .zeroMaxBytes
  else if config.maxFiles = 0 then .error .zeroMaxFiles
  else .ok config

/-- A configuration from a value. -/
def ofJson : Json → Except ConfigFault Config
  | .object members =>
    match ofFields (NameMap.ofPairs members) with
    | .error cause => .error (.mismatch cause)
    | .ok config =>
      match config.validate with
      | .error reason => .error (.invalid reason)
      | .ok config => .ok config
  | _ => .error (.invalid .notAnObject)

/-- A configuration from a file. -/
def load (files : Files) (path : String) : Except ConfigFault Config :=
  match files path with
  | .error reason => .error (.unreadable path reason)
  | .ok text =>
    match Json.parse Json.maxNesting text with
    | .error fault => .error (.unparsable path fault)
    | .ok v => ofJson v

/-- A configuration as a value. -/
def toJson (config : Config) : Json :=
  .object [("log_level", .string config.level.name), ("log_max_bytes", .count config.maxBytes),
    ("log_max_files", .count config.maxFiles), ("verify_checksums", .bool config.verifyChecksums)]

/-- How the journal of a tracker keeps its files. -/
def retention (config : Config) : Retention := ⟨config.maxBytes.toNat, config.maxFiles.toNat⟩

end Config

namespace ConfigFault

/-- The wording of a fault. -/
def message : ConfigFault → String
  | .unreadable path reason => "failed to read cursor config " ++ path ++ ": " ++ reason.message
  | .unparsable path fault => "failed to parse cursor config " ++ path ++ ": " ++ fault.message
  | .mismatch cause => "invalid cursor config: " ++ cause.message
  | .invalid reason => "invalid cursor config: " ++ reason.message

/-- The wording of the fault behind a fault, if there is one. -/
def cause : ConfigFault → Option String
  | .unreadable _ reason => some reason.message
  | .unparsable _ fault => some fault.message
  | .mismatch cause => some cause.message
  | .invalid _ => none

end ConfigFault

end StreamProgress
