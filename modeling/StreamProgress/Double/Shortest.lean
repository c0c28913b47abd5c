import StreamProgress.Double.Basic

/-!
# The shortest decimal of a double

Many decimals are read as the same double. The one that is written is the shortest of them, and of
several shortest ones the one nearest to the double.

## How it is found

The numbers that round to a double form an interval around it, reaching half way to its
neighbours. Its ends belong to it if the mantissa is even. The multiples of a power of ten form a
grid, and the coarser the grid, the shorter its decimals. So the grids are tried from the coarsest
on, and the first that has a point in the interval wins. If it has any, then one of them is next
to the double itself, so of each grid only those two points are looked at.

## Main definitions

* `Double.shortest` — the digits, and the power of ten that they are multiplied by
* `Double.text` — a double as text
-/

namespace StreamProgress

namespace Double

/-! ### The interval -/

/-- The numbers that round to a double, and the double itself, in common units. -/
structure Interval where
  low : Nat
  middle : Nat
  high : Nat
  /-- Whether the ends belong to the interval. -/
  closed : Bool

/-- Whether a number is in the interval. -/
def Interval.contains (i : Interval) (n : Nat) : Bool :=
  if i.closed then i.low ≤ n && n ≤ i.high else i.low < n && n < i.high

/-- The interval of a double in quarters of `2 ^ exponent`. Below a power of two the neighbour is
only half as far away. -/
def interval (x : Double) : Interval where
  low :=
    if x.mantissa = 1 <<< 52 ∧ leastExponent < x.exponent then 4 * x.mantissa - 1
    else 4 * x.mantissa - 2
  middle := 4 * x.mantissa
  high := 4 * x.mantissa + 2
  closed := x.mantissa % 2 == 0

/-- The interval in units that are `factor` times smaller. -/
def Interval.refine (i : Interval) (factor : Nat) : Interval :=
  { i with low := i.low * factor, middle := i.middle * factor, high := i.high * factor }

/-! ### Searching the grids -/

/-- The point that wins on a grid with points `spacing` apart, as its number on the grid: of the
two next to the middle, the one that is in the interval, or the nearer one, or the even one. -/
def Interval.pick (i : Interval) (spacing : Nat) : Option Nat :=
  let n := i.middle / spacing
  let below := i.contains (n * spacing)
  let above := i.contains ((n + 1) * spacing)
  if below && above then
    let twice := 2 * (i.middle - n * spacing)
    if twice < spacing || (twice == spacing && n % 2 == 0) then some n else some (n + 1)
  else if below then some n
  else if above then some (n + 1)
  else none

/-- The point of a double on the grid of the multiples of `10 ^ power`. The units of the interval
and the spacing of the grid are brought to a common size first. -/
def onGrid (x : Double) (power : Int) : Option Nat :=
  let tens := Nat.pow 10 power.natAbs
  let (units, twos) := scaleDown 1 1 (2 - x.exponent)
  if 0 ≤ power then (x.interval.refine units).pick (tens * twos)
  else (x.interval.refine (units * tens)).pick twos

/-- The first grid that has a point, from that of `power` on, among as many as `tries`. -/
def search (x : Double) (power : Int) : Nat → Nat × Int
  | 0 => (0, power)
  | tries + 1 =>
    match x.onGrid power with
    | some digits => (digits, power)
    | none => x.search (power - 1) tries

/-- A power of ten above a double. A bit counts for 0.30103 decimal digits. -/
def tenAbove (x : Double) : Int := (x.exponent + x.mantissa.log2 + 1) * 30103 / 100000 + 1

/-- The digits of the shortest decimal of a double that is not zero, and the power of ten that
they are multiplied by. Seventeen digits always suffice. -/
def shortest (x : Double) : Nat × Int := x.search x.tenAbove 20

/-! ### Text -/

/-- The least and the greatest power of ten of a first digit with which a number is written
without an exponent. -/
def plainRange : Int × Int := (-5, 15)

/-- Digits with an exponent: a point stands behind the first digit if there are more, and the
exponent has its sign. -/
def withExponent (digits : List Char) (leading : Int) : List Char :=
  let fraction := digits.drop 1
  digits.take 1 ++ (if fraction.isEmpty then [] else '.' :: fraction) ++
    ['e', if leading < 0 then '-' else '+'] ++ Nat.toDigits 10 leading.natAbs

/-- Digits without an exponent: at least one stands on each side of the point. -/
def withoutExponent (digits : List Char) (leading : Int) : List Char :=
  if leading < 0 then
    ['0', '.'] ++ List.replicate (leading.natAbs - 1) '0' ++ digits
  else
    let whole := leading.toNat + 1
    let fraction := digits.drop whole
    digits.take whole ++ List.replicate (whole - digits.length) '0' ++
      '.' :: (if fraction.isEmpty then ['0'] else fraction)

/-- A double as text. -/
def text (x : Double) : List Char :=
  if x.isZero then ['0', '.', '0']
  else
    let (n, power) := x.shortest
    let digits := Nat.toDigits 10 n
    let leading := power + digits.length - 1
    if plainRange.1 ≤ leading ∧ leading ≤ plainRange.2 then withoutExponent digits leading
    else withExponent digits leading

/-- The smallest and the largest double. -/
example : shortest ⟨1, -1074⟩ = (5, -324) ∧
    shortest ⟨(1 <<< 53) - 1, 971⟩ = (17976931348623157, 292) := by decide +kernel

/-- The interval of a power of two is shorter below than above. -/
example : shortest ⟨1 <<< 52, -1022⟩ = (10020841800044864, -308) := by decide +kernel

example : (ofRatio 3 2).map text = some ['1', '.', '5'] := by decide +kernel

example : (ofNat (Nat.pow 10 15)).map text =
    some ("1000000000000000.0".toList) := by decide +kernel

example : (ofNat (Nat.pow 10 16)).map text = some ['1', 'e', '+', '1', '6'] := by decide +kernel

example : (ofRatio 3 200000).map text = some ("0.000015".toList) := by decide +kernel

example : (ofRatio 3 2000000).map text = some ("1.5e-6".toList) := by decide +kernel

end Double

end StreamProgress
