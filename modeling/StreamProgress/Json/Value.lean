import StreamProgress.Json.Literal

/-!
# JSON values

The value of a JSON document, kept close to the text: an object is the list of its members in the
order in which they stand, repeated names included, because which member counts (the first, the
last, or none because a repetition is refused) is the reader's decision and not the document's.

Numbers come in three forms. An integer that fits 64 bits, unsigned or signed, has its exact
value. Every other number, with a fraction or an exponent, `-0` or an integer that is too large,
is only told apart from the integers and shown in messages, so it keeps its spelling and nothing
else.
-/

namespace StreamProgress

/-- A JSON number. -/
inductive Json.Number where
  /-- An integer from `0` to `2 ^ 64 - 1`. -/
  | natural (n : UInt64)
  /-- The integer `-(n + 1)`; a document holds those down to `-2 ^ 63`. -/
  | negative (n : Nat)
  /-- Any other number, as it is spelled. -/
  | real (literal : Json.Literal)
  deriving DecidableEq, Repr, Inhabited

/-- A JSON value. -/
inductive Json where
  | null
  | bool (b : Bool)
  | number (n : Json.Number)
  | string (s : String)
  | array (items : List Json)
  | object (members : List (String × Json))
  deriving Repr, Inhabited

namespace Json

/-- The number of a 64-bit count. -/
def count (n : UInt64) : Json := .number (.natural n)

/-- Whether a value is `null`. -/
def isNull : Json → Bool
  | .null => true
  | _ => false

theorem isNull_iff {v : Json} : v.isNull = true ↔ v = .null := by
  cases v <;> simp [isNull]

end Json

end StreamProgress
