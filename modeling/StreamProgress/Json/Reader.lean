import StreamProgress.Json.Number
import StreamProgress.Json.StringLiteral

/-!
# Reading JSON text

A `Reader` takes text and gives what it read together with the text that it left, or the first
fault that it met. Everything is read from left to right in one pass, so of several faults the
leftmost wins.

Brackets are read by two combinators. `readItems` and `readMembers` hand every item of an array
and every member of an object to a step that updates a state, and the step reads its value
itself. The reader of plain values, `readValue`, is one use of them; a reader that wants to judge
a member before the rest of the object is read is another.

## Implementation notes

Both kinds of bracket are one loop, `readEntries`: entries with commas between them, up to a
closing character. A member of an object is an entry that starts with its name.

`readValue` recurses on the number of brackets that may still be opened, so the nesting limit is
also what makes it total. The loop runs once for every entry; `room` bounds it and is any number
above the length of the text. It is never used up, since every entry is at least one character
long.

## Main definitions

* `Json.readItems`, `Json.readMembers` — the brackets
* `Json.readValue` — a value with at most so many brackets inside each other
* `Json.readDocument` — a whole text: one value with blanks around it
-/

namespace StreamProgress

namespace Json

/-- Reads from the front of a text, and leaves the rest of it. -/
abbrev Reader (α : Type) := List Char → Except Fault (α × List Char)

/-- The nesting that documents are read with. -/
def maxNesting : Nat := 127

/-! ### Blanks, words and scalars -/

/-- The characters that may stand between tokens. -/
def isBlank (c : Char) : Bool := c == ' ' || c == '\t' || c == '\n' || c == '\r'

/-- The text without the blanks in front of it. -/
def skipBlank (s : List Char) : List Char := s.dropWhile isBlank

/-- The text after a word that has to stand at its front. -/
def expectWord : List Char → List Char → Except Fault (List Char)
  | [], s => .ok s
  | _ :: _, [] => .error .truncated
  | c :: word, d :: s => if c = d then expectWord word s else .error .malformed

/-- A value without brackets. -/
def scanScalar : Reader Json
  | [] => .error .truncated
  | 'n' :: s => do
    let s ← expectWord ['u', 'l', 'l'] s
    return (.null, s)
  | 't' :: s => do
    let s ← expectWord ['r', 'u', 'e'] s
    return (.bool true, s)
  | 'f' :: s => do
    let s ← expectWord ['a', 'l', 's', 'e'] s
    return (.bool false, s)
  | '"' :: s => do
    let (value, s) ← StringLiteral.scan s
    return (.string value, s)
  | c :: s =>
    if c = '-' ∨ c.isDigit then do
      let (n, s) ← scanNumber (c :: s)
      return (.number n, s)
    else .error .malformed

/-! ### Brackets -/

variable {σ α : Type}

/-- The entries of a bracket from one entry on, up to and with the closing bracket. -/
def foldEntries (close : Char) (step : σ → Reader σ) : Nat → σ → Reader σ
  | 0, _, _ => .error .malformed
  | room + 1, state, s =>
    match step state s with
    | .error e => .error e
    | .ok (state, s) =>
      match skipBlank s with
      | [] => .error .truncated
      | c :: s =>
        if c = close then .ok (state, s)
        else if c = ',' then foldEntries close step room state s
        else .error .malformed

/-- The entries of a bracket that has been opened; it may be empty. -/
def readEntries (close : Char) (step : σ → Reader σ) (room : Nat) (state : σ) : Reader σ :=
  fun s =>
    match skipBlank s with
    | [] => .error .truncated
    | c :: s => if c = close then .ok (state, s) else foldEntries close step room state (c :: s)

/-- The items of an array whose opening bracket has been read. -/
def readItems (step : σ → Reader σ) (room : Nat) (state : σ) : Reader σ :=
  readEntries ']' step room state

/-- A member of an object. The step is given the name and the text after it, in which the colon
comes next. -/
def namedStep (step : σ → String → Reader σ) (state : σ) : Reader σ := fun s =>
  match skipBlank s with
  | [] => .error .truncated
  | '"' :: s =>
    match StringLiteral.scan s with
    | .error e => .error e
    | .ok (name, s) => step state name s
  | _ => .error .malformed

/-- The members of an object whose opening bracket has been read. -/
def readMembers (step : σ → String → Reader σ) (room : Nat) (state : σ) : Reader σ :=
  readEntries '}' (namedStep step) room state

/-- What follows a colon. -/
def afterColon (read : Reader α) : Reader α := fun s =>
  match skipBlank s with
  | [] => .error .truncated
  | ':' :: s => read s
  | _ => .error .malformed

/-! ### Values and documents -/

/-- One more item in front of those that have been read. -/
def pushItem (read : Reader α) (items : List α) : Reader (List α) := fun s => do
  let (a, s) ← read s
  return (a :: items, s)

/-- One more member in front of those that have been read. -/
def pushMember (read : Reader α) (members : List (String × α)) (name : String) :
    Reader (List (String × α)) := fun s => do
  let (a, s) ← afterColon read s
  return ((name, a) :: members, s)

/-- A value in which at most `nesting` brackets stand inside each other. -/
def readValue (room : Nat) (nesting : Nat) : Reader Json := fun s =>
  match skipBlank s with
  | '[' :: s =>
    match nesting with
    | 0 => .error .malformed
    | nesting + 1 => do
      let (items, s) ← readItems (pushItem (readValue room nesting)) room [] s
      return (.array items.reverse, s)
  | '{' :: s =>
    match nesting with
    | 0 => .error .malformed
    | nesting + 1 => do
      let (members, s) ← readMembers (pushMember (readValue room nesting)) room [] s
      return (.object members.reverse, s)
  | s => scanScalar s

/-- One value and nothing after it but blanks. -/
def readDocument (read : Reader α) (s : List Char) : Except Fault α :=
  match read s with
  | .error e => .error e
  | .ok (a, rest) =>
    match skipBlank rest with
    | [] => .ok a
    | _ => .error .malformed

/-- Room for every loop over a text. -/
def roomFor (s : List Char) : Nat := s.length + 1

/-- The value of a whole text, with at most `nesting` brackets inside each other. -/
def parse (nesting : Nat) (text : String) : Except Fault Json :=
  let s := text.toList
  readDocument (readValue (roomFor s) nesting) s

/-! ### Expecting something in the text -/

/-- What stands at the front of a text where something else was expected, and what is left behind
it. The inside of a bracket is not looked at. -/
def foundAt (s : List Char) : Except Fault (Found × List Char) :=
  match skipBlank s with
  | '[' :: s => .ok (.sequence, '[' :: s)
  | '{' :: s => .ok (.map, '{' :: s)
  | s => do
    let (v, s) ← scanScalar s
    return (v.found, s)

/-- The fault of a text in which something else stands than was expected. -/
def refuse (expected : String) (s : List Char) : Except Fault α := do
  let (found, rest) ← foundAt s
  throw (.mismatch (.invalidType found expected) (some rest))

/-- What is left of a text that breaks off in a bracket: blanks are passed over, and the closing
bracket if it follows. -/
def pastClosing (close : Char) (s : List Char) : List Char :=
  match skipBlank s with
  | [] => []
  | c :: rest => if c = close then rest else c :: rest

/-- A string, in the text itself. -/
def readString (expected : String) : Reader String := fun s =>
  match skipBlank s with
  | '"' :: s => StringLiteral.scan s
  | s => refuse expected s

/-- `null`, or what another reader reads. -/
def readNullable (read : Reader α) : Reader (Option α) := fun s =>
  match skipBlank s with
  | 'n' :: s => do
    let s ← expectWord ['u', 'l', 'l'] s
    return (none, s)
  | s => do
    let (a, s) ← read s
    return (some a, s)

end Json

end StreamProgress
