import TsQuery.Number.Binary64
import TsQuery.Text.Basic

/-!
# JSON values

Numbers are divided into integers of any size and binary floating-point numbers. The members of an
object keep their order. Setting a member that is present replaces its value in place; so an object
read with a key twice has the key where it first stood, with the value that it had last.
-/

namespace TsQuery

/-- A JSON value. -/
inductive Json
  | null
  | bool (value : Bool)
  | int (value : Int)
  | real (value : Binary64)
  | string (value : Text)
  | array (elements : List Json)
  | object (members : List (Text × Json))

namespace Json

/-- The members of an object. -/
abbrev Members := List (Text × Json)

/-- A string value with the characters of `s`. -/
def ofString (s : String) : Json :=
  string s

/-- A list of texts as an array of strings. -/
def ofTexts (texts : List Text) : Json :=
  array (texts.map string)

/-- An object with the given members, keys as strings. -/
def ofMembers (members : List (String × Json)) : Json :=
  object (members.map fun (key, value) => (.ofString key, value))

namespace Members

/-- The value of a member. -/
def get? (members : Members) (key : Text) : Option Json :=
  List.lookup key members

/-- Sets a member, in its place if it is present and at the end otherwise. -/
def set (key : Text) (value : Json) : Members → Members
  | [] => [(key, value)]
  | (other, old) :: rest =>
    if other = key then (key, value) :: rest else (other, old) :: set key value rest

/-- Sets members one after another. -/
def setAll (members updates : Members) : Members :=
  updates.foldl (fun members (key, value) => set key value members) members

@[simp] theorem get?_set_self (members : Members) (key : Text) (value : Json) :
    (set key value members).get? key = some value := by
  induction members with
  | nil => simp [set, get?]
  | cons member rest ih =>
    obtain ⟨other, old⟩ := member
    by_cases h : other = key
    · simp [set, get?, h]
    · simp only [set, if_neg h, get?, List.lookup_cons]
      rw [show (key == other) = false from beq_false_of_ne (Ne.symm h)]
      exact ih

theorem get?_set_of_ne {members : Members} {key other : Text} {value : Json} (h : other ≠ key) :
    (set key value members).get? other = members.get? other := by
  induction members with
  | nil => simp only [set, get?, List.lookup_cons, List.lookup_nil, beq_false_of_ne h]
  | cons member rest ih =>
    obtain ⟨present, old⟩ := member
    by_cases hk : present = key
    · subst hk
      simp only [set, if_pos, get?, List.lookup_cons, beq_false_of_ne h]
    · simp only [set, if_neg hk, get?, List.lookup_cons]
      split
      · rfl
      · exact ih

end Members

end Json

end TsQuery
