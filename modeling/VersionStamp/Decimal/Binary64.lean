import VersionStamp.Text

namespace VersionStamp

/-!
# Binary floating-point numbers and their decimal forms

A finite number of 64 bits is `mantissa * 2 ^ exponent` with less than `2 ^ 53` as mantissa.
`ofDecimal` takes a decimal to the nearest such number, a tie to the even mantissa. `shortest`
finds the fewest digits that are taken back to the same number, and of these the nearest.
-/

inductive Binary64 where
  | finite (negative : Bool) (mantissa : Nat) (exponent : Int)
  | infinite (negative : Bool)
  | nan
  deriving DecidableEq

namespace Binary64

def minExponent : Int := -1074

def maxExponent : Int := 971

/-- The first of the 53 bits of a mantissa that is as long as it can be. -/
def leadingBit : Nat := Nat.pow 2 52

/-- The quotient of two numbers, rounded to the nearest integer and a tie to the even one. -/
def roundDiv (numerator denominator : Nat) : Nat :=
  let quotient := numerator / denominator
  let rest := numerator % denominator
  if 2 * rest > denominator ∨ (2 * rest = denominator ∧ quotient % 2 = 1) then quotient + 1
  else quotient

/-- A fraction with its numerator and denominator multiplied so that it is divided by
`base ^ exponent`. -/
def scale (base : Nat) (exponent : Int) (fraction : Nat × Nat) : Nat × Nat :=
  (fraction.1 * Nat.pow base (-exponent).toNat, fraction.2 * Nat.pow base exponent.toNat)

def exponentOf (fraction : Nat × Nat) : Int :=
  let guess : Int := (Nat.log2 fraction.1 : Int) - Nat.log2 fraction.2 - 52
  let scaled := scale 2 guess fraction
  max minExponent (if scaled.1 < leadingBit * scaled.2 then guess - 1 else guess)

def ofFraction (negative : Bool) (fraction : Nat × Nat) : Binary64 :=
  let exponent := exponentOf fraction
  let scaled := scale 2 exponent fraction
  let mantissa := roundDiv scaled.1 scaled.2
  let (mantissa, exponent) :=
    if mantissa = 2 * leadingBit then (leadingBit, exponent + 1) else (mantissa, exponent)
  if exponent > maxExponent then .infinite negative else .finite negative mantissa exponent

/-- The number nearest to `digits * 10 ^ exponent`. Decimals far outside the range are settled by
the number of their digits. -/
def ofDecimal (negative : Bool) (digits : Nat) (exponent : Int) : Binary64 :=
  let magnitude : Int := (Text.ofNat digits).length + exponent
  if digits = 0 ∨ magnitude < -400 then .finite negative 0 minExponent
  else if magnitude > 400 then .infinite negative
  else ofFraction negative (scale 10 (-exponent) (digits, 1))

/-- The interval of the fractions that are rounded to a finite positive number, in units of
`2 ^ (exponent - 2)`. It holds its ends if the mantissa is even. -/
def interval (mantissa : Nat) (exponent : Int) : Nat × Nat :=
  (if mantissa = leadingBit ∧ exponent > minExponent then 4 * mantissa - 1 else 4 * mantissa - 2,
    4 * mantissa + 2)

def readsBack (mantissa : Nat) (exponent : Int) (n : Nat) (power : Int) : Bool :=
  let (low, high) := interval mantissa exponent
  let (a, b) := scale 2 (exponent - 2) (scale 10 (-power) (n, 1))
  if mantissa % 2 = 0 then low * b ≤ a && a ≤ high * b else low * b < a && a < high * b

def integerDigits (fraction : Nat × Nat) : Int :=
  let guess : Int :=
    ((Text.ofNat fraction.1).length : Int) - (Text.ofNat fraction.2).length
  let scaled := scale 10 guess fraction
  if scaled.1 < scaled.2 then guess else guess + 1

/-- The point of the grid of `10 ^ power` that reads back, the nearer one if both neighbours of
the number do. -/
def gridPoint? (mantissa : Nat) (exponent power : Int) (below : Nat) (rest : Nat × Nat) :
    Option (Nat × Int) :=
  let reads n := readsBack mantissa exponent n power
  match reads below, reads (below + 1) with
  | true, true => some (if 2 * rest.1 ≤ rest.2 then below else below + 1, power)
  | true, false => some (below, power)
  | false, true => some (below + 1, power)
  | false, false => none

def withoutFinalZeros (digits : Nat) (power : Int) : Nat × Int :=
  let zeros := ((Text.ofNat digits).reverse.takeWhile (· == '0')).length
  (digits / Nat.pow 10 zeros, power + zeros)

/-- The fewest digits that read back to a positive number, and the power of ten of the last. -/
def shortest (mantissa : Nat) (exponent : Int) : Nat × Int :=
  let fraction := scale 2 (-exponent) (mantissa, 1)
  let front := integerDigits fraction
  let grids := (List.range 17).map fun count =>
    let power := front - (count + 1 : Nat)
    let (a, b) := scale 10 power fraction
    gridPoint? mantissa exponent power (a / b) (a % b, b)
  match grids.findSome? id with
  | some (digits, power) => withoutFinalZeros digits power
  | none => (mantissa, exponent)

def positional (digits : Nat) (power : Int) : Text :=
  let text := Text.ofNat digits
  if power ≥ 0 then text ++ List.replicate power.toNat '0' ++ ".0"
  else
    let places := (-power).toNat
    let padded := Text.zeroPadded (places + 1) text
    padded.take (padded.length - places) ++ "." ++ padded.drop (padded.length - places)

def render : Binary64 → Text
  | .nan => "NaN"
  | .infinite negative => if negative then "-inf" else "inf"
  | .finite negative mantissa exponent =>
      let (digits, power) := if mantissa = 0 then (0, 0) else shortest mantissa exponent
      (if negative then ['-'] else []) ++ positional digits power

example : render (ofDecimal false 1025 (-2)) = "10.25" := by decide +kernel

example : render (ofDecimal true 1 (-7)) = "-0.0000001" := by decide +kernel

example : render (ofDecimal false 9007199254740993 0) = "9007199254740992.0" := by decide +kernel

end Binary64

end VersionStamp
