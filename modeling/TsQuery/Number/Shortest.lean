import TsQuery.Number.Binary64
import TsQuery.Number.Numeral

/-!
# Shortest decimals

A finite number is written with the fewest significant digits that read back as the number itself
and, among decimals of that length, as the one nearest to it, a tie going to the even last digit.
For each length only the two decimals on either side of the number come into question. Numbers from
`10 ^ (-4)` to below `10 ^ 16` are written positionally, the others with an exponent of at least two
digits.
-/

namespace TsQuery

/-- The decimal `digits * 10 ^ power`. -/
structure Decimal where
  digits : Nat
  power : Int
  deriving DecidableEq

namespace Decimal

/-- Moves trailing zeros of the digits into the power, at most `fuel` of them. -/
def trimmed : Nat → Decimal → Decimal
  | 0, decimal => decimal
  | fuel + 1, decimal =>
    if decimal.digits % 10 = 0 then trimmed fuel ⟨decimal.digits / 10, decimal.power + 1⟩
    else decimal

end Decimal

namespace Binary64

/-- The power of ten of the leading digit of a positive ratio. -/
def leadingPower (numerator denominator : Nat) : Int :=
  let guess : Int :=
    ((Nat.toDigits 10 numerator).length : Int) - ((Nat.toDigits 10 denominator).length : Int)
  let (above, below) := scaled 10 numerator denominator (-guess)
  if above < below then guess - 1 else guess

/-- The exact decimal of a positive number, every digit written out. -/
def exactDecimal (significand : Nat) (exponent : Int) : Decimal :=
  if exponent < 0 then ⟨significand * Nat.pow 5 exponent.natAbs, exponent⟩
  else ⟨significand * Nat.pow 2 exponent.natAbs, 0⟩

/-- The decimal with a number of significant digits that reads back as a positive number and is
nearest to it, if there is one. -/
def decimalOfLength? (significand : Nat) (exponent : Int) (length : Nat) : Option Decimal :=
  let (numerator, denominator) := scaled 2 significand 1 exponent
  let power := leadingPower numerator denominator - length + 1
  let (above, below) := scaled 10 numerator denominator (-power)
  let lower := above / below
  let readsBack (digits : Nat) : Bool :=
    ofDecimal false digits power == finite false significand exponent
  if readsBack lower then
    if readsBack (lower + 1) then some ⟨roundedRatio above below, power⟩ else some ⟨lower, power⟩
  else if readsBack (lower + 1) then some ⟨lower + 1, power⟩
  else none

/-- The shortest decimal that reads back as a positive number. Seventeen digits are enough for every
number; the exact decimal stands behind them. -/
def shortestDecimal (significand : Nat) (exponent : Int) : Decimal :=
  let found := (List.range 17).findSome? fun n => decimalOfLength? significand exponent (n + 1)
  (found.getD (exactDecimal significand exponent)).trimmed 17

/-- The characters of an exponent, with its sign and at least two digits. -/
def exponentChars (power : Int) : List Char :=
  let digits := Nat.toDigits 10 power.natAbs
  (if power < 0 then '-' else '+') :: (if digits.length < 2 then '0' :: digits else digits)

/-- The characters of a positive decimal. -/
def decimalChars (decimal : Decimal) : List Char :=
  let digits := Nat.toDigits 10 decimal.digits
  let point : Int := digits.length + decimal.power
  if -4 < point ∧ point ≤ 16 then
    if point ≤ 0 then ['0', '.'] ++ List.replicate point.natAbs '0' ++ digits
    else if point < digits.length then
      digits.take point.natAbs ++ ['.'] ++ digits.drop point.natAbs
    else digits ++ List.replicate decimal.power.natAbs '0' ++ ['.', '0']
  else
    let fraction := digits.drop 1
    digits.take 1 ++ (if fraction.isEmpty then [] else '.' :: fraction) ++ ['e']
      ++ exponentChars (point - 1)

/-- The text of a finite number. -/
def finiteText (negative : Bool) (significand : Nat) (exponent : Int) : Text :=
  let unsigned :=
    if significand = 0 then ['0', '.', '0']
    else decimalChars (shortestDecimal significand exponent)
  .ofChars (if negative then '-' :: unsigned else unsigned)

end Binary64

end TsQuery
