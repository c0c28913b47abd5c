import StreamProgress.Tracker

/-!
# The command line

The command line inspects a cursor file, or advances the cursor in it through a list of indices.
`Command.execute` is the whole program as a function: given the text of every file and the
arguments, it gives what is printed or why the command fails.

## The order of the steps

1. The arguments are read from left to right. `--help` answers at once, whatever came before it,
   and the last of several configurations counts.
2. The configuration is loaded, before it is asked which command is given.
3. The cursor file is read, before it is asked whether the command exists.
4. The command runs. All indices are read before the first one is applied.

## Implementation notes

The entries that an advance makes in its journal are never shown, so all of them are made at time
zero.
-/

namespace StreamProgress

/-- Why a text is no index. -/
inductive IndexFault where
  | empty
  | invalidDigit
  | tooLarge
  deriving DecidableEq, Repr

/-- The wording of a fault. -/
def IndexFault.message : IndexFault → String
  | .empty => "cannot parse integer from empty string"
  | .invalidDigit => "invalid digit found in string"
  | .tooLarge => "number too large to fit in target type"

/-- Why a command fails. -/
inductive CommandFault where
  | configPathMissing
  | config (fault : ConfigFault)
  | commandMissing
  | cursorFileMissing (command : String)
  | cursorUnreadable (path : String) (reason : ReadFault)
  /-- The file is no cursor. The place is where in the file that was noticed, if it is known. -/
  | cursorUnparsable (path : String) (fault : Json.Fault) (place : Option Json.Place)
  | cursor (fault : CursorFault)
  | invalidIndex (raw : String) (reason : IndexFault)
  | unknownCommand (command : String)
  deriving DecidableEq, Repr

namespace Command

/-- How the program is called. -/
def usage : String :=
  "usage: ceptra-cursor [--config <path>] inspect <cursor.json>\n" ++
  "       ceptra-cursor [--config <path>] advance <cursor.json> <index>..."

end Command

namespace CommandFault

/-- The wording of a fault. -/
def message : CommandFault → String
  | .configPathMissing => "--config requires a path"
  | .config fault => fault.message
  | .commandMissing => "missing command\n" ++ Command.usage
  | .cursorFileMissing command => command ++ " requires a cursor file"
  | .cursorUnreadable path _ => "failed to read cursor file " ++ path
  | .cursorUnparsable path _ _ => "failed to parse cursor file " ++ path
  | .cursor fault => fault.message
  | .invalidIndex raw _ => "invalid sequence index " ++ Quoted.ofString raw
  | .unknownCommand command => "unknown command: " ++ command ++ "\n" ++ Command.usage

/-- The wording of the fault behind a fault, if there is one. -/
def cause : CommandFault → Option String
  | .config fault => fault.cause
  | .cursorUnreadable _ reason => some reason.message
  | .cursorUnparsable _ fault place => some (fault.message ++ (place.map (·.message)).getD "")
  | .invalidIndex _ reason => some reason.message
  | .configPathMissing | .commandMissing | .cursorFileMissing _ | .cursor _ | .unknownCommand _ =>
    none

/-- A fault and the one behind it in one line. -/
def report (fault : CommandFault) : String :=
  match fault.cause with
  | none => fault.message
  | some cause => fault.message ++ ": " ++ cause

end CommandFault

namespace Command

/-! ### Arguments -/

/-- What the arguments ask for. -/
inductive Request where
  | help
  /-- Run what the positional arguments say, with the configuration at a path. -/
  | run (config : Option String) (positional : List String)
  deriving DecidableEq, Repr

/-- The request of arguments, given what has been read of them. -/
def Request.scan (config : Option String) (positional : List String) :
    List String → Except CommandFault Request
  | [] => .ok (.run config positional)
  | arg :: args =>
    if arg = "--config" then
      match args with
      | [] => .error .configPathMissing
      | path :: args => scan (some path) positional args
    else if arg = "--help" ∨ arg = "-h" then .ok .help
    else scan config (positional ++ [arg]) args

/-- The request of the arguments of a call. -/
def Request.ofArgs (args : List String) : Except CommandFault Request := scan none [] args

/-- The paths of the files that a request may read. -/
def Request.paths : Request → List String
  | .help => []
  | .run config positional => config.toList ++ (positional.drop 1).take 1

/-! ### Indices -/

/-- The value of decimal digits behind those of `n`; the first digit that is wrong or does not fit
decides. -/
def indexFrom (n : Nat) : List Char → Except IndexFault UInt64
  | [] => .ok (UInt64.ofNat n)
  | c :: rest =>
    if c.isDigit then
      let next := 10 * n + (c.toNat - '0'.toNat)
      if next < UInt64.size then indexFrom next rest else .error .tooLarge
    else .error .invalidDigit

/-- The index that a text spells: decimal digits, perhaps behind a plus sign. -/
def parseIndex (raw : String) : Except IndexFault UInt64 :=
  match raw.toList with
  | [] => .error .empty
  | ['+'] => .error .invalidDigit
  | '+' :: digits => indexFrom 0 digits
  | digits => indexFrom 0 digits

/-- The indices that texts spell. -/
def parseIndices : List String → Except CommandFault (List UInt64)
  | [] => .ok []
  | raw :: rest =>
    match parseIndex raw with
    | .error reason => .error (.invalidIndex raw reason)
    | .ok index => do
      let indices ← parseIndices rest
      return index :: indices

/-! ### Commands -/

/-- A result on cursors as a result of a command. -/
def ofCursor {α : Type} : Except CursorFault α → Except CommandFault α
  | .ok a => .ok a
  | .error fault => .error (.cursor fault)

/-- An optional number, or a dash. -/
def showNumber : Option UInt64 → String
  | none => "-"
  | some n => toString n.toNat

/-- The text of an optional cursor. -/
def showCursor (c : Option Cursor) : String := (Cursor.halfToJson c).text

/-- The text of an optional position. -/
def showPosition (p : Option Position) : String := showCursor (p.map .plain)

/-- What is to be said about an optional cursor. -/
def inspect (c : Option Cursor) : Except CursorFault String := do
  let floor ← Cursor.floorOf c
  let ceiling ← Cursor.ceilingOf c
  let mergePosition ← Cursor.mergePosition c
  return "kind: " ++ CheckpointFault.kindName (c.map Cursor.kind) ++ "\n" ++
    "merge_in_progress: " ++ (if Cursor.isMergeInProgress c then "true" else "false") ++ "\n" ++
    "lower_bound: " ++ showPosition floor ++ "\n" ++
    "upper_bound: " ++ showPosition ceiling ++ "\n" ++
    "position: " ++ showNumber (c.bind Cursor.number) ++ "\n" ++
    "merge_position: " ++ showNumber mergePosition ++ "\n"

/-- A tracker after a list of indices, and a line for each of them. -/
def advanceThrough (t : Tracker) : List UInt64 → Except CursorFault (String × Tracker)
  | [] => .ok ("", t)
  | index :: rest => do
    let (outcome, t) ← t.advance (.sequence index) 0
    let (lines, t) ← advanceThrough t rest
    return (toString index.toNat ++ ": " ++ outcome.text ++ "\n" ++ lines, t)

/-- Advance an optional cursor through a list of indices. -/
def advance (c : Option Cursor) (indices : List UInt64) (config : Config) :
    Except CursorFault String := do
  let (lines, t) ← advanceThrough (.start "cli" c config) indices
  return lines ++ "cursor: " ++ showCursor t.cursor ++ "\n"

/-- The optional cursor in a file. -/
def readCursor (files : Files) (path : String) : Except CommandFault (Option Cursor) :=
  match files path with
  | .error reason => .error (.cursorUnreadable path reason)
  | .ok text =>
    match Cursor.parseNullable text with
    | .error fault => .error (.cursorUnparsable path fault (fault.place text))
    | .ok c => .ok c

/-- The configuration that a request names, or the default one. -/
def loadConfig (files : Files) : Option String → Except CommandFault Config
  | none => .ok {}
  | some path =>
    match Config.load files path with
    | .error fault => .error (.config fault)
    | .ok config => .ok config

/-- Run what the positional arguments say. -/
def run (files : Files) (config : Config) : List String → Except CommandFault String
  | [] => .error .commandMissing
  | [command] => .error (.cursorFileMissing command)
  | command :: path :: args => do
    let c ← readCursor files path
    if command = "inspect" then ofCursor (inspect c)
    else if command = "advance" then do
      let indices ← parseIndices args
      ofCursor (advance c indices config)
    else throw (.unknownCommand command)

/-- What a call prints. -/
def execute (files : Files) (args : List String) : Except CommandFault String := do
  match ← Request.ofArgs args with
  | .help => return usage ++ "\n"
  | .run path positional => do
    let config ← loadConfig files path
    run files config positional

/-- How a process ends. -/
structure Exit where
  code : UInt32
  stdout : String
  stderr : String
  deriving DecidableEq, Repr

/-- How the process of a call ends. -/
def exit (files : Files) (args : List String) : Exit :=
  match execute files args with
  | .ok output => ⟨0, output, ""⟩
  | .error fault => ⟨1, "", "fatal: " ++ fault.report ++ "\n"⟩

end Command

end StreamProgress
