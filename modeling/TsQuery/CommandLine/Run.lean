import TsQuery.CommandLine.Invocation
import TsQuery.Json.Write
import TsQuery.Query.Compile
import TsQuery.Settings.Profile

/-!
# Running a command line

A run prints text on the output or an error on the error output, leaves records in the log, may
change the disk, and ends with an exit code: 0 if all went well, 2 for wrong arguments and for a
query that is refused, 3 for settings that are invalid. An operation that fails on the disk breaks
the run off.

The output is strict UTF-8, and printing a text with half of a surrogate pair fails before any of it
is written; the error output shows such halves by escapes. A failure to print takes the way of
settings that are invalid.
-/

namespace TsQuery

namespace CommandLine

/-- How a run ends. -/
inductive Ending
  | exit (code : Nat)
  | broken (error : DiskError)
  deriving DecidableEq

/-- What a run leaves. -/
structure Outcome where
  ending : Ending
  output : Text
  errors : Text
  log : Log
  disk : Disk

/-- Why a command fails. -/
inductive Failure
  | refused (refusal : Refusal)
  | invalid (problems : List SettingsProblem)
  | complaints (found : List Complaint)
  | disk (error : DiskError)
  | unprintable (fault : Utf8.EncodingFault)

/-- A line of output. -/
def line (text : Text) : Text :=
  text ++ "\n"

/-- A line of error output. -/
def errorLine (message : Text) : Text :=
  line ("Error: " ++ message)

namespace Failure

/-- How a failed run ends. A path that no disk can bear and a text that cannot be printed count as
values that are invalid. -/
def ending : Failure → Ending
  | refused _ => .exit 2
  | invalid _ | complaints _ | unprintable _ => .exit 3
  | disk error => if error.isPathFault then .exit 3 else .broken error

/-- What a failed run prints on the error output. -/
def errors : Failure → Text
  | refused refusal => errorLine refusal.message
  | invalid problems => errorLine (SettingsProblem.summary problems)
  | complaints found => found.flatMap fun complaint => errorLine complaint.message
  | disk .nullCharacter => errorLine "embedded null byte"
  | disk (.unencodable fault) | unprintable fault => errorLine fault.message
  | disk _ => []

end Failure

/-- What running a command gives: the disk as it is then, the log, and the text to print. -/
structure Run where
  disk : Disk
  log : Log
  result : Except Failure Text

/-- The limit for a query: the one that is asked for, checked against the settings in force, or
theirs. -/
def limitFor (settings : Settings) : Option Int → Except Failure Int
  | none => .ok settings.maxQueryLength
  | some n =>
    match settings.withOverrides [(Settings.limitKey, .int n)] with
    | .ok settings => .ok settings.maxQueryLength
    | .error problems => .error (.invalid problems)

/-- Runs something on a query with the limit that is in force. -/
def runQuery (base? : Option Text) (limit? : Option Int) (environment : Environment) (disk : Disk)
    (action : Int → Log × Except Refusal Text) : Run :=
  match Profile.load disk base? with
  | .error error => ⟨disk, [], .error (.disk error)⟩
  | .ok (profile, opened) =>
    let (settings, checked) := profile.settings environment
    match limitFor settings limit? with
    | .error failure => ⟨disk, opened ++ checked, .error failure⟩
    | .ok limit =>
      let (log, result) := action limit
      ⟨disk, opened ++ checked ++ log, result.mapError .refused⟩

/-- Compiles a query: the compiled text, or all that was found as JSON. -/
def runCompile (query : Text) (json : Bool) (limit : Int) : Log × Except Refusal Text :=
  match Query.compile limit (.string query) with
  | .error refusal => ([], .error refusal)
  | .ok compiled =>
    (Query.compileLog query,
      .ok (line (if json then (Json.ofMembers compiled.toMembers).write else compiled.text)))

/-- The terms of a query as JSON. -/
def runTerms (query : Text) (limit : Int) : Log × Except Refusal Text :=
  ([], (Query.extractTerms limit (.string query)).map fun vocabulary =>
    line (Json.ofMembers vocabulary.toMembers).write)

/-- The value that is given for a setting, which is a text if it is no integer. -/
def settingValue (text : Text) : Json :=
  match Numeral.read? text with
  | some n => .int n
  | none => .string text

/-- A value for a setting as it is told. -/
def settingText : Json → Text
  | .string text => text
  | value => value.display

/-- What is told about a setting that was stored. -/
def settingLine (key : Text) (value : Json) : Text :=
  line ("Set " ++ key ++ " = " ++ settingText value)

/-- Runs an action on the settings. -/
def runConfig (profile : Profile) (environment : Environment) (disk : Disk) : ConfigAction → Run
  | .show =>
    let (settings, log) := profile.settings environment
    ⟨disk, log, .ok (line settings.toJson.write)⟩
  | .set key text =>
    match profile.update [(key, settingValue text)] disk with
    | (disk, .ok _) => ⟨disk, [], .ok (settingLine key (settingValue text))⟩
    | (disk, .error (.invalid problems)) => ⟨disk, [], .error (.invalid problems)⟩
    | (disk, .error (.disk error)) => ⟨disk, [], .error (.disk error)⟩
  | .validate =>
    match profile.complaints environment disk with
    | .error error => ⟨disk, [], .error (.disk error)⟩
    | .ok [] => ⟨disk, [], .ok (line "Configuration is valid")⟩
    | .ok complaints => ⟨disk, [], .error (.complaints complaints)⟩
  | .reset =>
    match profile.reset disk with
    | (disk, .ok _) => ⟨disk, [], .ok (line "Configuration reset to defaults")⟩
    | (disk, .error error) => ⟨disk, [], .error (.disk error)⟩

/-- Runs a command. Serving is no matter of one run and prints nothing. -/
def Command.run (base? : Option Text) (environment : Environment) (disk : Disk) : Command → Run
  | .compile query limit? json => runQuery base? limit? environment disk (runCompile query json)
  | .terms query limit? => runQuery base? limit? environment disk (runTerms query)
  | .config action =>
    match Profile.load disk base? with
    | .error error => ⟨disk, [], .error (.disk error)⟩
    | .ok (profile, opened) =>
      let run := runConfig profile environment disk action
      { run with log := opened ++ run.log }
  | .serve => ⟨disk, [], .ok []⟩

namespace Stop

/-- The exit code when no command is run. -/
def code : Stop → Nat
  | help _ => 0
  | problem _ _ => 2

/-- What is printed when no command is run. -/
def output : Stop → Text
  | help page => page.help
  | problem _ _ => []

/-- What is printed on the error output when no command is run. -/
def errors : Stop → Text
  | help _ => []
  | problem page cause => page.usage ++ page.program ++ ": error: " ++ line cause.message

end Stop

/-- Prints a text, unless there is half of a surrogate pair in it. -/
def printed (output : Text) : Except Failure Text :=
  match Utf8.encodingFault? CodePoint.isHalf output with
  | some fault => .error (.unprintable fault)
  | none => .ok output

/-- Runs a command line. -/
def run (arguments : List Text) (environment : Environment) (disk : Disk) : Outcome :=
  match Invocation.ofArguments arguments with
  | .error stop => ⟨.exit stop.code, stop.output, stop.errors, [], disk⟩
  | .ok invocation =>
    let run := invocation.command.run invocation.base? environment disk
    let log := run.log.shown invocation.verbose
    match run.result.bind printed with
    | .ok output => ⟨.exit 0, output, [], log, run.disk⟩
    | .error failure => ⟨failure.ending, [], failure.errors, log, run.disk⟩

end CommandLine

end TsQuery
