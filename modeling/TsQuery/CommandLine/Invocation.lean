import TsQuery.CommandLine.Event
import TsQuery.CommandLine.Page

/-!
# What a command line asks for

The arguments are read as the options of the program, the name of a command and the arguments of the
command. What happens first decides: a request for help or a problem ends the reading. Arguments
that belong to nothing are a problem of the program as a whole, after all others; without a command,
help is shown.
-/

namespace TsQuery

namespace CommandLine

/-- What is asked about the settings. -/
inductive ConfigAction
  | show
  | set (key value : Text)
  | validate
  | reset
  deriving DecidableEq

/-- A command with its arguments. -/
inductive Command
  | compile (query : Text) (limit? : Option Int) (json : Bool)
  | terms (query : Text) (limit? : Option Int)
  | config (action : ConfigAction)
  | serve
  deriving DecidableEq

/-- A command with the options of the program. -/
structure Invocation where
  base? : Option Text
  verbose : Bool
  command : Command
  deriving DecidableEq

/-- Why no command is run: help is asked for, or there is a problem, of the command of a page. -/
inductive Stop
  | help (page : Page)
  | problem (page : Page) (cause : UsageProblem)
  deriving DecidableEq

/-- Reads arguments event by event. -/
def readArguments {α σ : Type} [DecidableEq α] (table : OptionTable α) (awaited : Awaited)
    (page : Page) (read : σ → Event α → Except Stop σ) (none : σ) (arguments : List Text) :
    Except Stop σ :=
  match table.pieces arguments with
  | .error problem => .error (.problem page problem)
  | .ok pieces => (table.events awaited Option.none pieces).foldlM read none

/-! ### Commands on a query -/

/-- An option of the commands on a query. -/
inductive QueryOption
  | help
  | maxLength
  | json
  deriving DecidableEq

/-- The options of the command that compiles, and without the last those of the command
for terms. -/
def QueryOption.table (json : Bool) : OptionTable QueryOption :=
  let shared : List (Text × QueryOption) :=
    [("-h", help), ("--help", help), ("--max-length", maxLength)]
  let extra : List (Text × QueryOption) := if json then [("--json", .json)] else []
  { spellings := shared ++ extra
    valueCount := fun option => if option = maxLength then 1 else 0 }

/-- The arguments of a command on a query. -/
structure QueryArguments where
  query? : Option Text
  limit? : Option Int
  json : Bool
  extras : List Text

/-- Reads an event of a command on a query. -/
def QueryArguments.read (page : Page) (arguments : QueryArguments) :
    Event QueryOption → Except Stop QueryArguments
  | .option .help _ => .error (.help page)
  | .option .maxLength [] => .ok { arguments with limit? := none }
  | .option .maxLength (value :: _) =>
    match readLimit value with
    | .ok n => .ok { arguments with limit? := some n }
    | .error fault => .error (.problem page (.invalidLimit "--max-length" fault))
  | .option .json _ => .ok { arguments with json := true }
  | .operand text _ => .ok { arguments with query? := some text }
  | .extra text => .ok { arguments with extras := arguments.extras ++ [text] }
  | .problem problem => .error (.problem page problem)

/-- The arguments of a command on a query, with the query, which must be there. -/
def readQuery (page : Page) (arguments : List Text) : Except Stop (Text × QueryArguments) :=
  let table := QueryOption.table (page = .compile)
  let read := QueryArguments.read page
  match readArguments table .operand page read ⟨none, none, false, []⟩ arguments with
  | .error stop => .error stop
  | .ok found =>
    match found.query? with
    | none => .error (.problem page .missingQuery)
    | some query => .ok (query, found)

/-! ### The command on the settings -/

/-- An option of the command on the settings. -/
inductive ConfigOption
  | help
  | show
  | set
  | validate
  | reset
  deriving DecidableEq

/-- The options of the command on the settings. -/
def ConfigOption.table : OptionTable ConfigOption :=
  { spellings := [("-h", help), ("--help", help), ("--show", .show),
      ("--set", set), ("--validate", validate), ("--reset", reset)]
    valueCount := fun option => if option = set then 2 else 0 }

/-- The arguments of the command on the settings. -/
structure ConfigArguments where
  chosen? : Option (ConfigOption × ConfigAction)
  extras : List Text

/-- Takes an action by its option, unless another option was given. -/
def ConfigArguments.choose (arguments : ConfigArguments) (option : ConfigOption)
    (action : ConfigAction) : Except Stop ConfigArguments :=
  let title := ConfigOption.table.title
  match arguments.chosen? with
  | some (other, _) =>
    if other = option then .ok { arguments with chosen? := some (option, action) }
    else .error (.problem .config (.excluded (title option) (title other)))
  | none => .ok { arguments with chosen? := some (option, action) }

/-- Reads an event of the command on the settings. -/
def ConfigArguments.read (arguments : ConfigArguments) :
    Event ConfigOption → Except Stop ConfigArguments
  | .option .help _ => .error (.help .config)
  | .option .show _ => arguments.choose .show .show
  | .option .set values => arguments.choose .set (.set (values.getD 0 []) (values.getD 1 []))
  | .option .validate _ => arguments.choose .validate .validate
  | .option .reset _ => arguments.choose .reset .reset
  | .operand text _ | .extra text => .ok { arguments with extras := arguments.extras ++ [text] }
  | .problem problem => .error (.problem .config problem)

/-! ### The command that serves -/

/-- The option of the command that serves. -/
inductive ServeOption
  | help
  deriving DecidableEq

/-- The options of the command that serves. -/
def ServeOption.table : OptionTable ServeOption :=
  { spellings := [("-h", help), ("--help", help)]
    valueCount := fun _ => 0 }

/-- Reads an event of the command that serves, to which every argument is an extra one. -/
def readServe (extras : List Text) : Event ServeOption → Except Stop (List Text)
  | .option .help _ => .error (.help .serve)
  | .operand text _ | .extra text => .ok (extras ++ [text])
  | .problem problem => .error (.problem .serve problem)

/-! ### The program -/

/-- The names of the commands. -/
def commandNames : List Text :=
  ["compile", "terms", "config", "serve"]

/-- Reads the arguments of a command, and which of them belong to nothing. -/
def readCommand (name : Text) (arguments : List Text) : Except Stop (Command × List Text) :=
  if name = "compile" then
    (readQuery .compile arguments).map fun (query, found) =>
      (.compile query found.limit? found.json, found.extras)
  else if name = "terms" then
    (readQuery .terms arguments).map fun (query, found) =>
      (.terms query found.limit?, found.extras)
  else if name = "config" then
    let read := ConfigArguments.read
    (readArguments ConfigOption.table .nothing .config read ⟨none, []⟩ arguments).map fun found =>
      (.config ((found.chosen?.map Prod.snd).getD .show), found.extras)
  else if name = "serve" then
    (readArguments ServeOption.table .nothing .serve readServe [] arguments).map fun extras =>
      (.serve, extras)
  else .error (.problem .main (.unknownCommand name commandNames))

/-- An option of the program. -/
inductive MainOption
  | help
  | configDir
  | verbose
  deriving DecidableEq

/-- The options of the program. -/
def MainOption.table : OptionTable MainOption :=
  { spellings := [("-h", help), ("--help", help), ("--config-dir", configDir),
      ("--verbose", verbose), ("-v", verbose)]
    valueCount := fun option => if option = configDir then 1 else 0 }

/-- The arguments of the program. -/
structure MainArguments where
  base? : Option Text
  verbose : Bool
  command? : Option Command
  extras : List Text

/-- Reads an event of the program. -/
def MainArguments.read (arguments : MainArguments) : Event MainOption → Except Stop MainArguments
  | .option .help _ => .error (.help .main)
  | .option .configDir values => .ok { arguments with base? := values.head? }
  | .option .verbose _ => .ok { arguments with verbose := true }
  | .operand name following =>
    (readCommand name following).map fun (command, extras) =>
      { arguments with command? := some command, extras := arguments.extras ++ extras }
  | .extra text => .ok { arguments with extras := arguments.extras ++ [text] }
  | .problem problem => .error (.problem .main problem)

/-- What the arguments of the program ask for. -/
def Invocation.ofArguments (arguments : List Text) : Except Stop Invocation :=
  match readArguments MainOption.table .command .main MainArguments.read ⟨none, false, none, []⟩
      arguments with
  | .error stop => .error stop
  | .ok found =>
    if !found.extras.isEmpty then .error (.problem .main (.unrecognized found.extras))
    else
      match found.command? with
      | none => .error (.help .main)
      | some command => .ok ⟨found.base?, found.verbose, command⟩

end CommandLine

end TsQuery
