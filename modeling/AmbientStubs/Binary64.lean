/-!
Binary floating-point numbers of double precision, as exact values
`significand * 2 ^ exponent`, and the number nearest to a decimal.
-/

namespace AmbientStubs

/-- A finite double.  Numbers of full precision have a significand of 53 bits, and the
exponent is never below -1074. -/
structure Binary64 where
  negative : Bool
  significand : Nat
  exponent : Int
deriving DecidableEq, Repr

namespace Binary64

def leastExponent : Int := -1074

def greatestExponent : Int := 971

/-- The integer nearest to a quotient; a half goes to the even neighbour. -/
def roundQuotient (numerator denominator : Nat) : Nat :=
  let quotient := numerator / denominator
  let rest := numerator % denominator
  if denominator < 2 * rest ∨ (denominator = 2 * rest ∧ quotient % 2 = 1) then quotient + 1
  else quotient

/-- The weight of the first of 53 bits, `2 ^ 52`. -/
def firstBit : Nat := 0x10000000000000

/-- `base ^ power` where the power is positive, and one where it is not. -/
def scale (base : Nat) (power : Int) : Nat :=
  Nat.pow base power.toNat

/-- The greatest exponent at which the quotient still has 53 bits before the point,
though none below the least exponent. -/
def quotientExponent (numerator denominator : Nat) : Int :=
  let guess : Int := (Nat.log2 numerator : Int) - Nat.log2 denominator - 52
  let fits : Bool := decide
    (scale 2 guess * denominator * firstBit ≤ scale 2 (-guess) * numerator)
  max leastExponent (if fits then guess else guess - 1)

def digitCount (number : Nat) : Nat :=
  (Nat.toDigits 10 number).length

/-- The double nearest to `digits * 10 ^ power`; none if it is too large for a double. -/
def nearest? (negative : Bool) (digits : Nat) (power : Int) : Option Binary64 :=
  let width : Int := digitCount digits + power
  if digits = 0 ∨ width < -330 then some ⟨negative, 0, leastExponent⟩
  else if 310 < width then none
  else
    let numerator := digits * scale 10 power
    let denominator := scale 10 (-power)
    let exponent := quotientExponent numerator denominator
    let significand :=
      roundQuotient (numerator * scale 2 (-exponent)) (denominator * scale 2 exponent)
    let (significand, exponent) :=
      if significand = 2 * firstBit then (firstBit, exponent + 1) else (significand, exponent)
    if greatestExponent < exponent then none else some ⟨negative, significand, exponent⟩

end Binary64

end AmbientStubs
