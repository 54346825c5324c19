/-!
# Binary floating-point numbers

A finite number is a sign and a significand below `2 ^ 53` times a power of two no smaller than
`2 ^ (-1074)`; the significand is at least `2 ^ 52` unless the power is the smallest. Beside the
finite numbers there are two infinities and one value that is not a number. A decimal is read as the
nearest number, a tie going to the even significand, and as an infinity from half a step above the
greatest.
-/

namespace TsQuery

/-- A number of 64-bit binary floating point. -/
inductive Binary64
  | finite (negative : Bool) (significand : Nat) (exponent : Int)
  | infinite (negative : Bool)
  | notANumber
  deriving DecidableEq

namespace Binary64

/-- The smallest power of two of a finite number. -/
def minExponent : Int := -1074

/-- The greatest power of two of a finite number. -/
def maxExponent : Int := 971

/-- The least significand of a number whose power of two is not the smallest. -/
def leastSignificand : Nat := Nat.pow 2 52

/-- A ratio rounded to the nearest integer, a tie going to the even one. -/
def roundedRatio (numerator denominator : Nat) : Nat :=
  let quotient := numerator / denominator
  let twice := 2 * (numerator % denominator)
  if twice < denominator then quotient
  else if denominator < twice then quotient + 1
  else quotient + quotient % 2

/-- A ratio times a power of a base, as a numerator and a denominator. -/
def scaled (base numerator denominator : Nat) (power : Int) : Nat × Nat :=
  if power < 0 then (numerator, denominator * Nat.pow base power.natAbs)
  else (numerator * Nat.pow base power.natAbs, denominator)

/-- The power of two at which a positive ratio has a significand of 53 bits, or the smallest. -/
def exponentOf (numerator denominator : Nat) : Int :=
  let guess : Int := (numerator.log2 : Int) - (denominator.log2 : Int) - 52
  let (above, below) := scaled 2 numerator denominator (-guess)
  max minExponent (if above < leastSignificand * below then guess - 1 else guess)

/-- The number nearest to a positive ratio. -/
def ofRatio (negative : Bool) (numerator denominator : Nat) : Binary64 :=
  let exponent := exponentOf numerator denominator
  let (above, below) := scaled 2 numerator denominator (-exponent)
  let significand := roundedRatio above below
  let (significand, exponent) :=
    if significand = 2 * leastSignificand then (leastSignificand, exponent + 1)
    else (significand, exponent)
  if maxExponent < exponent then infinite negative else finite negative significand exponent

/-- The number nearest to `digits * 10 ^ power`. The length of the digits decides the far ends of
the range first, so that no power there is worked out. -/
def ofDecimal (negative : Bool) (digits : Nat) (power : Int) : Binary64 :=
  let leading : Int := (Nat.toDigits 10 digits).length + power
  if digits = 0 ∨ leading < -330 then finite negative 0 minExponent
  else if 310 < leading then infinite negative
  else
    let (above, below) := scaled 10 digits 1 power
    ofRatio negative above below

end Binary64

end TsQuery
