import StreamProgress.Json.Fault

/-!
# Numbers in JSON text

A number is scanned as a `Literal` first, the parts of its spelling, and then valued. Integers
that fit 64 bits are exact. Any other number is a real number, which keeps its spelling; it is
refused if it is too large for a double.
-/

namespace StreamProgress

namespace Json

/-! ### The value of a number -/

/-- The number that is spelled, if it is not too large. Minus zero is no integer. -/
def Literal.value (l : Literal) : Except Fault Number :=
  let n := decimal l.whole
  if l.fraction.isNone && l.exponent.isNone && !l.negative && n < UInt64.size then
    .ok (.natural (UInt64.ofNat n))
  else if l.fraction.isNone && l.exponent.isNone && l.negative && 0 < n && n ≤ UInt64.size / 2 then
    .ok (.negative (n - 1))
  else if l.toDouble.isNone then .error .malformed
  else .ok (.real l)

/-! ### Scanning -/

/-- At least one digit, as many as there are. -/
def scanDigits (s : List Char) : Except Fault (List Char × List Char) :=
  match s.takeWhile Char.isDigit, s.dropWhile Char.isDigit with
  | [], [] => .error .truncated
  | [], _ => .error .malformed
  | digits, rest => .ok (digits, rest)

/-- The digits of an integer: no zero stands before another digit. -/
def scanWhole (s : List Char) : Except Fault (List Char × List Char) := do
  let (digits, rest) ← scanDigits s
  if digits.head? = some '0' ∧ digits ≠ ['0'] then throw .malformed
  return (digits, rest)

/-- A point with the digits after it, if there is one. -/
def scanFraction : List Char → Except Fault (Option (List Char) × List Char)
  | '.' :: s => do
    let (digits, rest) ← scanDigits s
    return (some digits, rest)
  | s => .ok (none, s)

/-- The sign of an exponent, if there is one. -/
def scanSign : List Char → List Char × List Char
  | '+' :: s => (['+'], s)
  | '-' :: s => (['-'], s)
  | s => ([], s)

/-- An exponent, if there is one. -/
def scanExponent : List Char → Except Fault (Option (List Char × List Char) × List Char)
  | c :: s =>
    if c = 'e' ∨ c = 'E' then do
      let (sign, s) := scanSign s
      let (digits, rest) ← scanDigits s
      return (some (c :: sign, digits), rest)
    else .ok (none, c :: s)
  | [] => .ok (none, [])

/-- A number without its sign. -/
def scanUnsigned (negative : Bool) (s : List Char) : Except Fault (Number × List Char) := do
  let (whole, s) ← scanWhole s
  let (fraction, s) ← scanFraction s
  let (exponent, s) ← scanExponent s
  let number ← Literal.value { negative, whole, fraction, exponent }
  return (number, s)

/-- A number. -/
def scanNumber : List Char → Except Fault (Number × List Char)
  | '-' :: s => scanUnsigned true s
  | s => scanUnsigned false s

example : scanNumber ['1', '8', ','] = .ok (.natural 18, [',']) := by cbv

example : scanNumber ['-', '0'] = .ok (.real ⟨true, ['0'], none, none⟩, []) := by cbv

example : scanNumber ['1', 'e', '3', '0', '9'] = .error .malformed := by cbv

example : scanNumber ['1', '.'] = .error .truncated := by cbv

end Json

end StreamProgress
