import TsQuery.Settings.Profile
import TsQuery.Tool.Call

/-!
# The server

A server takes its settings when it starts, from the settings file under the folder that its client
names, and keeps them for all calls.
-/

namespace TsQuery

/-- A server with the settings that it started with. -/
structure Server where
  settings : Settings
  deriving DecidableEq

namespace Server

/-- The name under which a server presents itself. -/
def name : String := "tsquery-compiler"

/-- The version of the server. -/
def version : String := "1.0.0"

/-- Starts a server. -/
def start (disk : Disk) (environment : Environment) : Except DiskError (Server × Log) :=
  match Profile.load disk environment.root? with
  | .error error => .error error
  | .ok (profile, opened) =>
    let (settings, log) := profile.settings environment
    .ok (⟨settings⟩, opened ++ log)

/-- Answers a call. -/
def call (server : Server) (name : Text) (arguments : Json.Members) : Reply × Log :=
  Tool.call server.settings.maxQueryLength name arguments

end Server

end TsQuery
