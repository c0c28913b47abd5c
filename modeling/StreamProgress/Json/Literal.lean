import StreamProgress.Double.Shortest

/-!
# How numbers are spelled

A `Literal` is the spelling of a number in JSON text, in its parts. What a number that is no
integer is worth is a matter of two steps: the spelling gives a significand and a power of ten,
and these give a double.

## The double of a literal

The significand is the leading digits of the spelling, as many of them as fit 64 bits. Digits that
do not fit are left out; those before the point count for the power. The significand is made a
double, and so is the power of ten, and one is multiplied or divided by the other. So the result
is within a few roundings of the number that is spelled, not always the double nearest to it.
-/

namespace StreamProgress

namespace Json

/-- The spelling of a number, in its parts. -/
structure Literal where
  negative : Bool
  /-- The digits before the point. -/
  whole : List Char
  /-- The digits after the point, if there is one. -/
  fraction : Option (List Char)
  /-- The exponent, if there is one: its letter with the sign that follows, and its digits. -/
  exponent : Option (List Char × List Char)
  deriving DecidableEq, Repr, Inhabited

namespace Literal

/-- The spelling put together. -/
def spelling (l : Literal) : List Char :=
  (if l.negative then ['-'] else []) ++ l.whole ++
    (match l.fraction with | none => [] | some digits => '.' :: digits) ++
    (match l.exponent with | none => [] | some (mark, digits) => mark ++ digits)

/-- The value of decimal digits. -/
def decimal (digits : List Char) : Nat := Nat.ofDigitChars 10 digits 0

/-- Continue a 64-bit significand by as many of the digits as fit, and count those left over. -/
def significand (start : Nat) : List Char → Nat × Nat
  | [] => (start, 0)
  | c :: rest =>
    let next := 10 * start + (c.toNat - '0'.toNat)
    if next < UInt64.size then significand next rest else (start, rest.length + 1)

/-- The significand of a number and the power of ten that it is multiplied by. -/
def scaled (l : Literal) : Nat × Int :=
  let fraction := l.fraction.getD []
  let (start, dropped) := significand 0 l.whole
  let (digits, rest) := significand start fraction
  let exponent : Int := match l.exponent with
    | none => 0
    | some (mark, ds) => if mark.contains '-' then -decimal ds else decimal ds
  (digits, exponent + dropped - (fraction.length - rest : Nat))

/-- The double of a number without its sign, if the number is not too large. -/
def toDouble (l : Literal) : Option Double := do
  let (digits, power) := l.scaled
  let x ← Double.ofNat digits
  if 0 ≤ power then x.timesTen power.toNat else x.overTen power.natAbs

/-- A number that is no integer, as a message shows it: as the double that it is read as. -/
def shown (l : Literal) : String :=
  let digits := match l.toDouble with
    | none => l.spelling
    | some x => (if l.negative then ['-'] else []) ++ x.text
  "`" ++ String.ofList digits ++ "`"

/-- The largest power of ten that is a double, and the first multiple of it that is none. -/
example :
    (toDouble ⟨false, ['1'], none, some (['e'], ['3', '0', '8'])⟩).isSome = true ∧
      toDouble ⟨false, ['1'], some ['8'], some (['e'], ['3', '0', '8'])⟩ = none := by
  decide +kernel

end Literal

end Json

end StreamProgress
