import StreamProgress.Json.Reader

/-!
# Closed lists of names

Some fields hold one of a few names: the kind of a cursor, the level of a log line. A
`Vocabulary` lists the names with what they stand for, in the order in which a message lists
them, and reads a name from wherever it stands.

## The forms of a name

* As a value, a name is a string or an object with the name as its only member and `null` under
  it (`ofJson` from a value, `reader` from text).
* As the tag of a tagged object it is a string; inside a value that has been read already it may
  also be its number in the list (`tagOfJson`), in the text itself it may not (`tagReader`).
-/

namespace StreamProgress

namespace Json

/-- Names and what they stand for. -/
structure Vocabulary (α : Type) where
  entries : List (String × α)

namespace Vocabulary

variable {α : Type} (v : Vocabulary α)

/-- The names, in order. -/
def names : List String := v.entries.map (·.1)

/-- What a name stands for. -/
def find (name : String) : Except Mismatch α :=
  match v.entries.lookup name with
  | some a => .ok a
  | none => .error (.unknownVariant name v.names)

/-- What may stand for the value of a name that is written as a member. -/
def unitOfJson (value : Json) : Except Mismatch Unit :=
  if value.isNull then .ok () else .error (.invalidType value.found "unit")

/-- A name given as a value. The members of an object are those of a map, so of several members
with one name the last one counts. -/
def ofJson : Json → Except Mismatch α
  | .string name => v.find name
  | .object [] => .error (.invalidValue .map "map with a single key")
  | .object ((name, value) :: members) =>
    if members.all (·.1 = name) then do
      let a ← v.find name
      unitOfJson ((members.getLast?.map (·.2)).getD value)
      return a
    else .error (.invalidValue .map "map with a single key")
  | value => .error (.invalidType value.found "string or map")

/-- A tag given as a value: a name, or the number of one. -/
def tagOfJson : Json → Except Mismatch α
  | .string name => v.find name
  | .number (.natural n) =>
    match v.entries[n.toNat]? with
    | some (_, a) => .ok a
    | none =>
      .error (.invalidValue (.integer n.toNat)
        ("variant index 0 <= i < " ++ toString v.entries.length))
  | value => .error (.invalidType value.found "variant identifier")

/-- A tag in the text itself: a name. -/
def tagReader : Reader α := fun s =>
  match readString "variant identifier" s with
  | .error e => .error e
  | .ok (name, s) =>
    match v.find name with
    | .error e => .error (.mismatch e (some s))
    | .ok a => .ok (a, s)

/-- `null` in the text itself. -/
def unitReader : Reader Unit := fun s =>
  match skipBlank s with
  | 'n' :: s => do
    let s ← expectWord ['u', 'l', 'l'] s
    return ((), s)
  | s => refuse "unit" s

/-- The name of a member in the text itself. -/
def nameReader : Reader α := fun s =>
  match skipBlank s with
  | [] => .error .truncated
  | '"' :: s => v.tagReader ('"' :: s)
  | _ => .error .malformed

/-- A name in the text itself. -/
def reader : Reader α := fun s =>
  match skipBlank s with
  | [] => .error .truncated
  | '"' :: _ => v.tagReader s
  | '{' :: s => do
    let (a, s) ← v.nameReader s
    let (_, s) ← afterColon unitReader s
    match skipBlank s with
    | [] => throw .truncated
    | '}' :: s => return (a, s)
    | _ => throw .malformed
  | _ => .error .malformed

/-- The name that a text consists of. -/
def read (text : String) : Except Fault α := readDocument v.reader text.toList

end Vocabulary

end Json

end StreamProgress
