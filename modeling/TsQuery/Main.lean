import TsQuery.CommandLine.Run
import TsQuery.Server

/-!
# The program

The program takes the part of the disk on which the settings are, lets a run find out what to print
and what the disk holds afterwards, and carries that out. While it serves, it answers one call to a
line: a JSON object with the name of a tool and its arguments.
-/

namespace TsQuery

namespace Program

/-- The absolute path of a location. -/
def absolute (location : Location) : String :=
  "/" ++ "/".intercalate (location.reverse.map Text.toString)

/-- What is at a location. -/
def look (location : Location) : IO (Option Node) := do
  let path := (← IO.currentDir) / absolute location
  if ← path.isDir then return some .folder
  else if ← path.pathExists then return some (.file (← IO.FS.readBinFile path).toList)
  else return none

/-- Adds to a disk what is at a location. -/
def add (disk : Disk) (location : Location) : IO Disk := do
  match ← look location with
  | none => return disk
  | some node =>
    return if disk.node? location = some node then disk else disk.insert location node

/-- Adds to a disk what is on the way along names from a location. -/
def survey (disk : Disk) (here : Location) : List Text → IO Disk
  | [] => add disk here
  | name :: names => do
    let disk ← add disk here
    match disk.step here name with
    | .error _ => return disk
    | .ok next => survey disk next names

/-- The part of the disk on which the settings under a base path are. -/
def settingsDisk (base? : Option Text) : IO Disk := do
  let names := (Path.ofText (← IO.currentDir).toString).names
  let disk ← survey ⟨[], names.reverse⟩ [] names
  let file := SettingsFile.ofBase disk base?
  let disk ← survey disk (disk.start file.path) file.path.names
  survey disk (disk.start file.temporary) file.temporary.names

/-- Makes the disk hold a node at a location. A file is put in place all at once. -/
def place (location : Location) : Node → IO Unit
  | .folder => IO.FS.createDir (absolute location)
  | .file content => do
    let aside := absolute location ++ ".tmp"
    IO.FS.writeBinFile aside ⟨content.toArray⟩
    IO.FS.rename aside (absolute location)

/-- Carries out what has changed from one disk to another, the oldest change first. -/
def settle (before after : Disk) : IO Unit := do
  for (location, _) in before.entries do
    if (after.node? location).isNone then IO.FS.removeFile (absolute location)
  for (location, node) in after.entries.reverse do
    if before.node? location != some node then place location node

/-- Shows log records. -/
def report (log : Log) : IO Unit :=
  for record in log do
    IO.eprintln s!"{record.level.name} - {record.message.toString}"

/-- Answers calls, one to a line, until there are no more. -/
partial def answerCalls (server : Server) (input output : IO.FS.Stream) : IO Unit := do
  let line ← input.getLine
  if line.isEmpty then return
  match Json.read line with
  | .error error => IO.eprintln error.message
  | .ok call =>
    let members : Json.Members := match call with | .object members => members | _ => []
    let name : Text := match members.get? "name" with | some (.string name) => name | _ => []
    let arguments : Json.Members :=
      match members.get? "arguments" with | some (.object given) => given | _ => []
    let (reply, log) := server.call name arguments
    report log
    output.putStrLn reply.toText.toString
    output.flush
  answerCalls server input output

/-- Starts a server and answers calls. -/
def serve (environment : Environment) : IO UInt32 := do
  match Server.start (← settingsDisk environment.root?) environment with
  | .error _ =>
    IO.eprintln "Error: the settings cannot be read"
    return 1
  | .ok (server, log) =>
    report (log.shown false)
    answerCalls server (← IO.getStdin) (← IO.getStdout)
    return 0

/-- Runs a command line. -/
def run (arguments : List Text) (base? : Option Text) (environment : Environment) : IO UInt32 := do
  let disk ← settingsDisk base?
  let outcome := CommandLine.run arguments environment disk
  settle disk outcome.disk
  report outcome.log
  IO.print outcome.output.toString
  IO.eprint outcome.errors.toString
  match outcome.ending with
  | .exit code => return UInt32.ofNat code
  | .broken (.tooNested bracket) =>
    IO.eprintln s!"Error: {Json.overflowMessage bracket}"
    return 1
  | .broken _ =>
    IO.eprintln "Error: the settings cannot be read or stored"
    return 1

end Program

end TsQuery

open TsQuery in
/-- The program. -/
def main (arguments : List String) : IO UInt32 := do
  let arguments := arguments.map Text.ofString
  let environment : Environment :=
    { limit? := (← IO.getEnv Environment.limitVariable).map Text.ofString
      root? := (← IO.getEnv Environment.rootVariable).map Text.ofString }
  match CommandLine.Invocation.ofArguments arguments with
  | .ok ⟨_, _, .serve⟩ => Program.serve environment
  | .ok invocation => Program.run arguments invocation.base? environment
  | .error _ => Program.run arguments none environment
