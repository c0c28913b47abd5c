import StreamProgress.Json.StringLiteral

/-!
# Writing JSON text

Values are written compactly: no blanks, members in the order in which the value lists them,
strings with as few escapes as the format allows. Like `StringLiteral.write`, every function here
puts its output in front of the text that follows.
-/

namespace StreamProgress

namespace Json

/-- The decimal digits of a natural number, in front of the text that follows. -/
def writeNat (n : Nat) (rest : List Char) : List Char := Nat.toDigits 10 n ++ rest

/-- A number, in front of the text that follows. -/
def Number.write : Number → List Char → List Char
  | .natural n, rest => writeNat n.toNat rest
  | .negative n, rest => '-' :: writeNat (n + 1) rest
  | .real literal, rest => literal.spelling ++ rest

mutual

/-- A value, in front of the text that follows. -/
def write : Json → List Char → List Char
  | .null, rest => 'n' :: 'u' :: 'l' :: 'l' :: rest
  | .bool true, rest => 't' :: 'r' :: 'u' :: 'e' :: rest
  | .bool false, rest => 'f' :: 'a' :: 'l' :: 's' :: 'e' :: rest
  | .number n, rest => n.write rest
  | .string s, rest => StringLiteral.write s rest
  | .array items, rest => '[' :: writeItems items rest
  | .object members, rest => '{' :: writeMembers members rest

/-- The items of an array with its closing bracket. -/
def writeItems : List Json → List Char → List Char
  | [], rest => ']' :: rest
  | [v], rest => write v (']' :: rest)
  | v :: w :: items, rest => write v (',' :: writeItems (w :: items) rest)

/-- The members of an object with its closing bracket. -/
def writeMembers : List (String × Json) → List Char → List Char
  | [], rest => '}' :: rest
  | [(name, v)], rest => StringLiteral.write name (':' :: write v ('}' :: rest))
  | (name, v) :: m :: members, rest =>
    StringLiteral.write name (':' :: write v (',' :: writeMembers (m :: members) rest))

end

/-- The text of a value. -/
def text (v : Json) : String := String.ofList (v.write [])

end Json

end StreamProgress
