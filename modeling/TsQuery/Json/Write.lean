import TsQuery.Json.Basic
import TsQuery.Number.Shortest
import TsQuery.Text.Digit

/-!
# Writing JSON

A value is written in ASCII with two blanks of indentation for each level, one element or member to
a line; empty arrays and objects are closed at once. Characters beyond printable ASCII have escapes,
two of them above `U+FFFF`. Floating-point numbers have their shortest decimal; the infinities and
the value that is not a number are written as the words that reading accepts for them.
-/

namespace TsQuery

namespace Json

/-- The escape of a code unit. -/
def unitEscape (unit : Nat) : Text :=
  '\\' :: 'u' :: hexText 4 unit

/-- The form of a character in a string. -/
def escapedChar (c : CodePoint) : Text :=
  if c = '"' ∨ c = '\\' then ['\\', c]
  else if c = '\n' then ['\\', 'n']
  else if c = '\r' then ['\\', 'r']
  else if c = '\t' then ['\\', 't']
  else if c = '\x0c' then ['\\', 'f']
  else if c = '\x08' then ['\\', 'b']
  else if 0x20 ≤ c.toNat ∧ c.toNat ≤ 0x7e then [c]
  else if c.toNat < 0x10000 then unitEscape c.toNat
  else
    let offset := c.toNat - 0x10000
    unitEscape (0xd800 + offset / 0x400) ++ unitEscape (0xdc00 + offset % 0x400)

/-- The quote on both sides of a string. -/
def stringQuote : CodePoint := '"'

/-- A text as a string. -/
def writeString (text : Text) : Text :=
  stringQuote :: text.flatMap escapedChar ++ [stringQuote]

/-- A floating-point number as a number or a word. -/
def writeReal : Binary64 → Text
  | .finite negative significand exponent => Binary64.finiteText negative significand exponent
  | .infinite negative => if negative then "-Infinity" else "Infinity"
  | .notANumber => "NaN"

/-- The beginning of a line at a level. -/
def lineStart (level : Nat) : Text :=
  '\n' :: List.replicate (2 * level) ' '

/-- Entries at a level between brackets, one to a line. -/
def enclose (level : Nat) (opening closing : CodePoint) (entries : List Text) : Text :=
  if entries.isEmpty then [opening, closing]
  else
    opening :: lineStart (level + 1)
      ++ Text.joined (',' :: lineStart (level + 1)) entries ++ lineStart level ++ [closing]

mutual

/-- The text of a value that stands at a level. -/
def writeAt (level : Nat) : Json → Text
  | null => "null"
  | bool value => if value then "true" else "false"
  | int value => Numeral.write value
  | real value => writeReal value
  | string value => writeString value
  | array elements => enclose level '[' ']' (writeElements (level + 1) elements)
  | object members => enclose level '\x7b' '\x7d' (writeMembers (level + 1) members)

/-- The texts of elements at a level. -/
def writeElements (level : Nat) : List Json → List Text
  | [] => []
  | value :: rest => writeAt level value :: writeElements level rest

/-- The texts of members at a level. -/
def writeMembers (level : Nat) : List (Text × Json) → List Text
  | [] => []
  | (key, value) :: rest =>
    (writeString key ++ ([':', ' '] : Text) ++ writeAt level value) :: writeMembers level rest

end

/-- The text of a value. -/
def write (value : Json) : Text :=
  writeAt 0 value

end Json

end TsQuery
