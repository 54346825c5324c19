import TsQuery.Log
import TsQuery.Number.Numeral
import TsQuery.Settings.Basic
import TsQuery.Text.Quoted

/-!
# Settings from the environment

One variable sets the limit in the place of the stored one, another the base path of a server's
settings file. A limit that is no integer is ignored with a warning; one that is out of range is
ignored as well, but only when settings are asked for.
-/

namespace TsQuery

/-- The variables of the environment, each if it is set. -/
structure Environment where
  limit? : Option Text
  root? : Option Text

namespace Environment

/-- The name of the variable for the limit. -/
def limitVariable : String := "TSQUERY_MAX_QUERY_LENGTH"

/-- The name of the variable for the base path. -/
def rootVariable : String := "MCP_CLIENT_ROOT"

/-- The warning about a limit that is no integer. -/
def notIntegerRecord (text : Text) : LogRecord :=
  ⟨.warning, s!"Ignoring non-integer {limitVariable}=" ++ text.quoted⟩

/-- The settings that the environment gives, whether in range or not. -/
def overrides (environment : Environment) : Json.Members × Log :=
  match environment.limit? with
  | none => ([], [])
  | some text =>
    match Numeral.read? text with
    | some n => ([(Settings.limitKey, .int n)], [])
    | none => ([], [notIntegerRecord text])

/-- The warning about settings that are out of range. -/
def outOfRangeRecord (problems : List SettingsProblem) : LogRecord :=
  ⟨.warning, "Ignoring environment overrides: " ++ SettingsProblem.summary problems⟩

/-- Settings with what the environment gives in their place. -/
def override (environment : Environment) (settings : Settings) : Settings × Log :=
  match environment.overrides with
  | ([], log) => (settings, log)
  | (members, log) =>
    match settings.withOverrides members with
    | .ok overridden => (overridden, log)
    | .error problems => (settings, log ++ [outOfRangeRecord problems])

end Environment

end TsQuery
