import TsQuery.Json.Display
import TsQuery.Query.Refusal

/-!
# Settings

The one setting is the greatest length of a query, from 1 to `maxLimit` characters. Settings are
described by a JSON object in which it may be missing. Checking a description lists all that is
wrong with it: fields that are not known, in code point order, then the limit itself. A truth value
is no integer.
-/

namespace TsQuery

/-- The settings of the compiler. -/
structure Settings where
  maxQueryLength : Int
  deriving DecidableEq

/-- Something wrong with a description of settings. -/
inductive SettingsProblem
  | notObject
  | unknownField (key : Text)
  | notInteger (value : Json)
  | notPositive
  | tooGreat

namespace Settings

/-- The greatest value of the setting. -/
def maxLimit : Int := 100000

/-- The name of the setting. -/
def limitKey : Text := "max_query_length"

/-- The settings where none are given. -/
def default : Settings := ⟨Query.defaultLimit⟩

/-- Settings as members of an object. -/
def toMembers (settings : Settings) : Json.Members :=
  [(limitKey, .int settings.maxQueryLength)]

/-- Settings as an object. -/
def toJson (settings : Settings) : Json :=
  .object settings.toMembers

end Settings

namespace SettingsProblem

/-- A problem in words. -/
def message : SettingsProblem → Text
  | notObject => "Configuration must be a JSON object"
  | unknownField key => "Unknown configuration field: " ++ key
  | notInteger value => "Max query length must be an integer: " ++ value.display
  | notPositive => "Max query length must be positive"
  | tooGreat => s!"Max query length too large (max {Settings.maxLimit} characters)"

/-- Problems in words, as one message. -/
def summary (problems : List SettingsProblem) : Text :=
  "Invalid configuration: " ++ Text.joined ", " (problems.map message)

end SettingsProblem

namespace Settings

/-- What is wrong with a value for the limit. -/
def limitProblem? : Json → Option SettingsProblem
  | .int n =>
    if n ≤ 0 then some .notPositive
    else if maxLimit < n then some .tooGreat
    else none
  | value => some (.notInteger value)

/-- The fields of a description that are not known. -/
def unknownFields (members : Json.Members) : List Text :=
  Text.sortedSet ((members.map Prod.fst).filter (· != limitKey))

/-- What is wrong with a description. -/
def problems : Json → List SettingsProblem
  | .object members =>
    (unknownFields members).map .unknownField
      ++ ((Json.Members.get? members limitKey).bind limitProblem?).toList
  | _ => [.notObject]

/-- The settings that a description without problems gives. -/
def ofDescription : Json → Settings
  | .object members =>
    match Json.Members.get? members limitKey with
    | some (.int n) => ⟨n⟩
    | _ => default
  | _ => default

/-- Reads a description. -/
def ofJson (value : Json) : Except (List SettingsProblem) Settings :=
  if (problems value).isEmpty then .ok (ofDescription value) else .error (problems value)

/-- Settings with other values for some fields, checked as a whole. -/
def withOverrides (settings : Settings) (overrides : Json.Members) :
    Except (List SettingsProblem) Settings :=
  ofJson (.object (settings.toMembers.setAll overrides))

end Settings

end TsQuery
