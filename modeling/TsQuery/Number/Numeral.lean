import TsQuery.Text.Digit

/-!
# Decimal numerals

An integer is written as a sign or none and decimal digits of any script, with single underscores
allowed between digits and blanks allowed around. Of the ASCII blanks only the space and those from
tab to carriage return count; beyond ASCII all do. More than `maxDigits` digits are refused.
-/

namespace TsQuery

/-- The greatest number of digits that an integer is read from. -/
def maxDigits : Nat := 4300

namespace Numeral

/-- The value of a sequence of digits. -/
def value (digits : List Nat) : Nat :=
  digits.foldl (fun n digit => 10 * n + digit) 0

/-- The value of an ASCII digit. -/
def asciiDigit? (c : CodePoint) : Option Nat :=
  if c.isDigit then some (c.toNat - '0'.toNat) else none

/-- A character beyond ASCII as the ASCII character that it stands for in a numeral: the blank, a
digit, or a sign that no numeral has. -/
def toAscii (c : CodePoint) : CodePoint :=
  if c.toNat < 0x7f then c
  else if isBlank c then ' '
  else match digitValue? c with
    | some digit => CodePoint.ofNat ('0'.toNat + digit)
    | none => '?'

/-- Whether a blank can stand around a numeral. -/
def isPadding (c : CodePoint) : Bool :=
  c == ' ' || (0x9 ≤ c.toNat && c.toNat ≤ 0xd)

/-- The digits of a text, read in full: a digit, then digits with at most one underscore before
each. -/
def digits? : Text → Option (List Nat)
  | [] => none
  | [c] => (asciiDigit? c).map ([·])
  | c :: '_' :: rest => do return (← asciiDigit? c) :: (← digits? rest)
  | c :: rest => do return (← asciiDigit? c) :: (← digits? rest)

/-- The absolute value of a numeral without a sign. -/
def magnitude? (text : Text) : Option Nat := do
  let digits ← digits? text
  if digits.length ≤ maxDigits then some (value digits) else none

/-- The integer that a text of ASCII characters denotes, if it is a numeral. -/
def readAscii? (text : Text) : Option Int :=
  let padded := text.dropWhile isPadding
  match (padded.reverse.dropWhile isPadding).reverse with
  | '+' :: unsigned => (magnitude? unsigned).map Int.ofNat
  | '-' :: unsigned => (magnitude? unsigned).map fun n => -Int.ofNat n
  | unsigned => (magnitude? unsigned).map Int.ofNat

/-- The integer that a text denotes, if it is a numeral. -/
def read? (text : Text) : Option Int :=
  readAscii? (text.map toAscii)

/-- The digits of an integer, after a minus sign if it is negative. -/
def write : Int → Text
  | .ofNat n => Text.ofChars (Nat.toDigits 10 n)
  | .negSucc n => '-' :: Text.ofChars (Nat.toDigits 10 (n + 1))

end Numeral

end TsQuery
