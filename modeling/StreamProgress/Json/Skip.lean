import StreamProgress.Json.Reader

/-!
# Skipping a value

A reader that has no use for a member passes over its value. A skipped value has to be one token
or properly closed brackets, but as nothing is built from it, three things are not asked: how deep
its brackets are nested, whether its numbers fit a double, and whether the surrogates in its
strings come in pairs. A number that breaks off is malformed here, not truncated.
-/

namespace StreamProgress

namespace Json

namespace Skip

/-- Pass over the rest of a string whose opening quote has been read. -/
def string : List Char → Except Fault (List Char)
  | [] => .error .truncated
  | '"' :: rest => .ok rest
  | '\\' :: rest =>
    match rest with
    | [] => .error .truncated
    | 'u' :: rest =>
      match rest with
      | a :: b :: c :: d :: rest =>
        if (StringLiteral.hexUnit a b c d).isSome then string rest else .error .malformed
      | short => .error (StringLiteral.shortUnit short)
    | c :: rest => if (StringLiteral.letterEscape c).isSome then string rest else .error .malformed
  | c :: rest => if c.toNat < 0x20 then .error .malformed else string rest

/-- Pass over at least one digit. -/
def digits (s : List Char) : Except Fault (List Char) :=
  match s.takeWhile Char.isDigit with
  | [] => .error .malformed
  | _ => .ok (s.dropWhile Char.isDigit)

/-- Pass over an exponent, if there is one. -/
def exponent : List Char → Except Fault (List Char)
  | c :: s => if c = 'e' ∨ c = 'E' then digits (scanSign s).2 else .ok (c :: s)
  | [] => .ok []

/-- Pass over a number without its sign. -/
def unsigned (s : List Char) : Except Fault (List Char) := do
  if s.head? = some '0' ∧ (s.drop 1).head?.any Char.isDigit then throw .malformed
  match ← digits s with
  | '.' :: s => do
    let s ← digits s
    exponent s
  | s => exponent s

/-- Pass over a value without brackets. -/
def scalar : List Char → Except Fault (List Char)
  | [] => .error .truncated
  | 'n' :: s => expectWord ['u', 'l', 'l'] s
  | 't' :: s => expectWord ['r', 'u', 'e'] s
  | 'f' :: s => expectWord ['a', 'l', 's', 'e'] s
  | '"' :: s => string s
  | '-' :: s => unsigned s
  | c :: s => if c.isDigit then unsigned (c :: s) else .error .malformed

/-- A reader that only passes over something. -/
def toReader (skip : List Char → Except Fault (List Char)) (_ : Unit) : Reader Unit := fun s => do
  let s ← skip s
  return ((), s)

/-- Pass over a member of an object: its name, the colon and the value. -/
def member (value : List Char → Except Fault (List Char)) (s : List Char) :
    Except Fault (List Char) :=
  match skipBlank s with
  | [] => .error .truncated
  | '"' :: s => do
    let s ← string s
    let (_, s) ← afterColon (toReader value ()) s
    return s
  | _ => .error .malformed

/-- Pass over a value that opens fewer than `depth` brackets inside each other. -/
def value (room : Nat) : Nat → List Char → Except Fault (List Char)
  | 0, _ => .error .malformed
  | depth + 1, s =>
    match skipBlank s with
    | '[' :: s => do
      let (_, s) ← readEntries ']' (toReader (value room depth)) room () s
      return s
    | '{' :: s => do
      let (_, s) ← readEntries '}' (toReader (member (value room depth))) room () s
      return s
    | s => scalar s

end Skip

end Json

end StreamProgress
