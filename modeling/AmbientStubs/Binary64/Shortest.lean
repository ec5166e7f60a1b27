import AmbientStubs.Binary64
import AmbientStubs.Text.Character

/-!
The shortest decimal of a double: the fewest digits that still read back as the same
number, and of those the nearest to it.
-/

namespace AmbientStubs.Binary64

def decimalExponent (number : Binary64) : Int :=
  let scaled := number.significand * scale 2 number.exponent * scale 10 400 /
    scale 2 (-number.exponent)
  (digitCount scaled : Int) - 401

/-- The ends of the interval of reals that round to a number, in units of a quarter of
the last binary place.  The interval is narrower below a power of two. -/
def interval (number : Binary64) : Nat × Nat :=
  let middle := 4 * number.significand
  if number.significand = firstBit ∧ leastExponent < number.exponent then (middle - 1, middle + 2)
  else (middle - 2, middle + 2)

/-- Whether `digits * 10 ^ power` reads as the given number: it lies in the interval,
whose ends belong to it exactly when the significand is even. -/
def readsBack (number : Binary64) (digits : Nat) (power : Int) : Bool :=
  let (low, high) := number.interval
  let unit := number.exponent - 2
  let decimal := digits * scale 10 power * scale 2 (-unit)
  let low := low * scale 2 unit * scale 10 (-power)
  let high := high * scale 2 unit * scale 10 (-power)
  if number.significand % 2 = 0 then low ≤ decimal && decimal ≤ high
  else low < decimal && decimal < high

/-- The distance between a number and `digits * 10 ^ power`, in a unit that depends on the
number and the power alone. -/
def distance (number : Binary64) (digits : Nat) (power : Int) : Nat :=
  let decimal := digits * scale 10 power * scale 2 (-number.exponent)
  let exact := number.significand * scale 2 number.exponent * scale 10 (-power)
  (decimal - exact) + (exact - decimal)

/-- The digits with the given last place that read back, if there are any.  Of the two
neighbours of the number the nearer one is taken, and the even one of two equally near. -/
def digitsAt? (number : Binary64) (power : Int) : Option Nat :=
  let below := number.significand * scale 2 number.exponent * scale 10 (-power) /
    (scale 2 (-number.exponent) * scale 10 power)
  let above := below + 1
  match number.readsBack below power, number.readsBack above power with
  | true, true =>
      let toBelow := number.distance below power
      let toAbove := number.distance above power
      some (if toBelow < toAbove ∨ (toBelow = toAbove ∧ below % 2 = 0) then below else above)
  | true, false => some below
  | false, true => some above
  | false, false => none

/-- The shortest digits of a positive number and the power of ten of the first of them.
Seventeen digits always read back. -/
def shortest (number : Binary64) : List Char × Int :=
  let first := number.decimalExponent
  let powers := (List.range 17).map fun (count : Nat) => first - (count : Int)
  match powers.findSome? fun power => (number.digitsAt? power).map fun digits => (digits, power) with
  | some (digits, power) =>
      let written := Nat.toDigits 10 digits
      (Text.withoutTrailingZeros written, power + (written.length : Int) - 1)
  | none => ([], 0)

end AmbientStubs.Binary64
