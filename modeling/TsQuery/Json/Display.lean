import TsQuery.Json.Basic
import TsQuery.Number.Shortest
import TsQuery.Text.Quoted

/-!
# Values in messages

A message shows a value on one line: words with a capital for the values that are words, texts
between quotes, elements and members between brackets with a comma and a blank after each but the
last.
-/

namespace TsQuery

namespace Json

/-- The form of a floating-point number in a message. -/
def displayReal : Binary64 → Text
  | .finite negative significand exponent => Binary64.finiteText negative significand exponent
  | .infinite negative => if negative then "-inf" else "inf"
  | .notANumber => "nan"

/-- Forms between brackets. -/
def bracketed (opening closing : CodePoint) (forms : List Text) : Text :=
  opening :: Text.joined [',', ' '] forms ++ [closing]

mutual

/-- The form of a value in a message. -/
def display : Json → Text
  | null => "None"
  | bool value => if value then "True" else "False"
  | int value => Numeral.write value
  | real value => displayReal value
  | string value => value.quoted
  | array elements => bracketed '[' ']' (displayElements elements)
  | object members => bracketed '\x7b' '\x7d' (displayMembers members)

/-- The forms of elements. -/
def displayElements : List Json → List Text
  | [] => []
  | value :: rest => display value :: displayElements rest

/-- The forms of members, each a quoted key and its value. -/
def displayMembers : List (Text × Json) → List Text
  | [] => []
  | (key, value) :: rest =>
    (key.quoted ++ ([':', ' '] : Text) ++ display value) :: displayMembers rest

end

end Json

end TsQuery
