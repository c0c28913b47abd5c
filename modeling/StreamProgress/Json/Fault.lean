import StreamProgress.Json.Place
import StreamProgress.Json.Value
import StreamProgress.Text.Quoted

/-!
# What can be wrong with a document

Reading a document fails in one of three ways: the text ends too early, the text is no JSON, or
the JSON does not have the expected shape. Only the third kind has a message, and a `Mismatch`
says which: every constructor is a cause, and `Mismatch.message` is the one place that words it.

Expectations are given in the words of the message (`"u64"`, `"a boolean"`), since nothing but
the message depends on them.

## Where a mismatch is

A mismatch that is noticed while the text is read has a place, the point up to which the text has
been read then. It is kept as the rest of the text, because a reader that works from the front of
a text knows no more; `Fault.place` turns it into a line and a column. A mismatch that is noticed
later, when values that have been read are taken apart, has no place.
-/

namespace StreamProgress

namespace Json

/-- What was found where something else was expected. -/
inductive Found where
  | null
  | boolean (b : Bool)
  | integer (n : Int)
  /-- A number that is no integer, as it is shown. -/
  | real (shown : String)
  | string (s : String)
  | sequence
  | map
  deriving DecidableEq, Repr

/-- What a value is found to be. -/
def found : Json → Found
  | .null => .null
  | .bool b => .boolean b
  | .number (.natural n) => .integer n.toNat
  | .number (.negative n) => .integer (Int.negSucc n)
  | .number (.real l) => .real l.shown
  | .string s => .string s
  | .array _ => .sequence
  | .object _ => .map

/-- The wording of what was found. -/
def Found.message : Found → String
  | .null => "null"
  | .boolean b => "boolean `" ++ (if b then "true" else "false") ++ "`"
  | .integer n => "integer `" ++ toString n ++ "`"
  | .real shown => "floating point " ++ shown
  | .string s => "string " ++ Quoted.ofString s
  | .sequence => "sequence"
  | .map => "map"

/-- Why a well-formed value does not have the expected shape. -/
inductive Mismatch where
  /-- The value is of another kind than expected. -/
  | invalidType (found : Found) (expected : String)
  /-- The value is of the expected kind but out of range. -/
  | invalidValue (found : Found) (expected : String)
  /-- A sequence has a length that does not fit. -/
  | invalidLength (length : Nat) (expected : String)
  | missingField (name : String)
  | duplicateField (name : String)
  | unknownField (name : String) (expected : List String)
  | unknownVariant (name : String) (expected : List String)
  /-- A merge of two absent halves. -/
  | emptyMerge
  deriving DecidableEq, Repr

/-- A list of names as a message shows it, each between backticks. -/
def nameList (names : List String) : String :=
  ", ".intercalate (names.map fun name => "`" ++ name ++ "`")

/-- The wording of a mismatch. -/
def Mismatch.message : Mismatch → String
  | .invalidType found expected => "invalid type: " ++ found.message ++ ", expected " ++ expected
  | .invalidValue found expected => "invalid value: " ++ found.message ++ ", expected " ++ expected
  | .invalidLength length expected =>
    "invalid length " ++ toString length ++ ", expected " ++ expected
  | .missingField name => "missing field `" ++ name ++ "`"
  | .duplicateField name => "duplicate field `" ++ name ++ "`"
  | .unknownField name expected =>
    "unknown field `" ++ name ++ "`, expected one of " ++ nameList expected
  | .unknownVariant name expected =>
    "unknown variant `" ++ name ++ "`, expected one of " ++ nameList expected
  | .emptyMerge => "merged cursor requires at least one segment cursor"

/-- Why a text cannot be read. -/
inductive Fault where
  /-- The text ends before the document does. -/
  | truncated
  /-- The text is no JSON document. -/
  | malformed
  /-- The document is not what it should be. If this is noticed while the text is read, `rest` is
  what is left of the text then. -/
  | mismatch (cause : Mismatch) (rest : Option (List Char))
  deriving DecidableEq, Repr

/-- The wording of a fault. -/
def Fault.message : Fault → String
  | .truncated => "the document is not complete"
  | .malformed => "the document is malformed"
  | .mismatch cause _ => cause.message

/-- The place of a mismatch in the whole text, if it has one. -/
def Fault.place (text : String) : Fault → Option Place
  | .mismatch _ (some rest) => some (.ofRest text.toList rest)
  | .truncated | .malformed | .mismatch _ none => none

end Json

end StreamProgress
