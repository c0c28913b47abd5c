/-!
# Doubles

A real number in a document is read as a double: 53 significant bits and an exponent of two. Only
finite doubles without a sign are needed here, so a `Double` is a whole number of bits, its
mantissa, times a power of two. Every operation is an exact one on natural numbers followed by one
rounding to the nearest double, a tie going to the even mantissa.

There is no infinity. A result that is too large is no double, so the operations that may give one
are optional.

## Main definitions

* `Double.ofRatio` — the double nearest to a quotient of natural numbers
* `Double.mul`, `Double.div` — products and quotients, rounded
-/

namespace StreamProgress

/-- The number `mantissa * 2 ^ exponent`, with at most 53 bits in the mantissa; they are fewer only
if the exponent is the least one. -/
structure Double where
  mantissa : Nat
  exponent : Int
  deriving DecidableEq, Repr, Inhabited

namespace Double

/-- The exponent of the smallest doubles. -/
def leastExponent : Int := -1074

/-- The exponent of the largest doubles. -/
def greatestExponent : Int := 971

/-- Zero. -/
def zero : Double := ⟨0, leastExponent⟩

/-- Whether a double is zero. -/
def isZero (x : Double) : Bool := x.mantissa == 0

/-! ### Rounding -/

/-- A quotient rounded to the nearest whole number, a tie going to the even one. -/
def roundQuotient (num den : Nat) : Nat :=
  let quotient := num / den
  let twice := 2 * (num % den)
  if twice < den || (twice == den && quotient % 2 == 0) then quotient else quotient + 1

/-- A quotient divided by `2 ^ exponent`, as a quotient again. -/
def scaleDown (num den : Nat) (exponent : Int) : Nat × Nat :=
  if 0 ≤ exponent then (num, den <<< exponent.toNat) else (num <<< (-exponent).toNat, den)

/-- The exponent that leaves 53 bits before the point of a quotient that is not zero, or the least
one. The sizes of its two parts determine it up to one. -/
def exponentOf (num den : Nat) : Int :=
  let high : Int := (num.log2 : Int) - (den.log2 : Int) - 52
  let (n, d) := scaleDown num den high
  max (if n / d < 1 <<< 52 then high - 1 else high) leastExponent

/-- The double nearest to a quotient, if it is not too large. -/
def ofRatio (num den : Nat) : Option Double :=
  if num = 0 then some zero
  else
    let exponent := exponentOf num den
    let (n, d) := scaleDown num den exponent
    let rounded := roundQuotient n d
    let x : Double :=
      if rounded = 1 <<< 53 then ⟨1 <<< 52, exponent + 1⟩ else ⟨rounded, exponent⟩
    if greatestExponent < x.exponent then none else some x

/-- The double nearest to a natural number. -/
def ofNat (n : Nat) : Option Double := ofRatio n 1

/-! ### Arithmetic -/

/-- The product of two doubles. -/
def mul (x y : Double) : Option Double :=
  let (n, d) := scaleDown (x.mantissa * y.mantissa) 1 (-(x.exponent + y.exponent))
  ofRatio n d

/-- The quotient of two doubles, of which the second is not zero. -/
def div (x y : Double) : Option Double :=
  let (n, d) := scaleDown x.mantissa y.mantissa (y.exponent - x.exponent)
  ofRatio n d

/-- The double of a power of ten, if it is not too large. -/
def ten (power : Nat) : Option Double :=
  if 308 < power then none else ofNat (Nat.pow 10 power)

/-- Multiply by a power of ten. Zero stays zero, whatever the power. -/
def timesTen (x : Double) (power : Nat) : Option Double :=
  if x.isZero then some x
  else do
    let y ← ten power
    x.mul y

/-- Divide by a power of ten. A power that is no double takes several divisions, each of them
rounded. -/
def overTen (x : Double) (power : Nat) : Option Double :=
  if x.isZero then some x
  else if _h : power ≤ 308 then do
    let y ← ten power
    x.div y
  else do
    let y ← ten 308
    let z ← x.div y
    z.overTen (power - 308)
termination_by power

/-- A power of two is a double, and so is the largest one. -/
example : ofNat (1 <<< 80) = some ⟨1 <<< 52, 28⟩ ∧
    ofNat ((1 <<< 1024) - (1 <<< 971)) = some ⟨(1 <<< 53) - 1, 971⟩ := by decide +kernel

/-- A tie goes to the even mantissa. -/
example : ofNat ((1 <<< 53) + 1) = some ⟨1 <<< 52, 1⟩ ∧
    ofNat ((1 <<< 53) + 3) = some ⟨(1 <<< 52) + 2, 1⟩ := by decide +kernel

/-- Half of the smallest double rounds to zero, anything above to the smallest double. -/
example : ofRatio 1 (1 <<< 1075) = some ⟨0, -1074⟩ ∧
    ofRatio 3 (1 <<< 1076) = some ⟨1, -1074⟩ := by decide +kernel

/-- From the middle between the largest double and the next power of two on, there is none. -/
example : ofNat ((1 <<< 1024) - (1 <<< 970)) = none ∧
    (ofNat ((1 <<< 1024) - (1 <<< 970) - 1)).isSome := by decide +kernel

end Double

end StreamProgress
