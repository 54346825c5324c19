import TsQuery.Disk.Access
import TsQuery.Json.Nesting
import TsQuery.Json.Write
import TsQuery.Log
import TsQuery.Settings.Basic

/-!
# Stored settings

Settings are kept in a file in a folder of its own under a base path. A file whose content is no
description of settings counts as none, with a warning; only one that opens too many arrays and
objects within each other makes loading fail. Settings are written to a temporary file
first, which then takes the place of the other, so that no half-written file is ever read; when that
fails, the temporary file is discarded.
-/

namespace TsQuery

/-- Why the bytes of a file are no JSON. -/
inductive ContentFault
  | encoding (fault : Utf8.Fault)
  | json (error : Json.ReadError)
  deriving DecidableEq

/-- A fault in words. -/
def ContentFault.message : ContentFault → Text
  | encoding fault => fault.message
  | json error => error.message

/-- The JSON value that the bytes of a file hold, line breaks of any kind being line feeds. -/
def Json.ofBytes (bytes : Bytes) : Except ContentFault Json :=
  match Utf8.decode bytes with
  | .error fault => .error (.encoding fault)
  | .ok text =>
    match Json.read text.withLineFeeds with
    | .error error => .error (.json error)
    | .ok value => .ok value

/-- The bracket at which reading the bytes of a file as JSON breaks off because too many arrays and
objects are open. -/
def Json.overflowOfBytes? (bytes : Bytes) : Option CodePoint :=
  match Utf8.decode bytes with
  | .error _ => none
  | .ok text => Json.overflow? Json.maxNesting (skip text.withLineFeeds)

/-- A settings file, given by the path of the folder around its own. -/
structure SettingsFile where
  base : Path
  deriving DecidableEq

namespace SettingsFile

/-- The settings file under a base path, or under the working folder if there is none or it is
empty. -/
def ofBase (disk : Disk) : Option Text → SettingsFile
  | none => ⟨disk.workingPath⟩
  | some text => if text = [] then ⟨disk.workingPath⟩ else ⟨.ofText text⟩

/-- The folder of the settings file. -/
def folder (file : SettingsFile) : Path :=
  file.base.child ".tsquery_compiler"

/-- The path of the settings file. -/
def path (file : SettingsFile) : Path :=
  file.folder.child "compiler_config.json"

/-- The path of the temporary file. -/
def temporary (file : SettingsFile) : Path :=
  file.folder.child "compiler_config.tmp"

/-- The path of the settings file as it is written. -/
def name (file : SettingsFile) : Text :=
  file.path.toText

/-- What the settings file holds, if it is there. -/
def content? (file : SettingsFile) (disk : Disk) :
    Except DiskError (Option (Except ContentFault Json)) :=
  match disk.holds file.path with
  | .error error => .error error
  | .ok false => .ok none
  | .ok true =>
    match disk.read file.path with
    | .error error => .error error
    | .ok bytes =>
      match Json.overflowOfBytes? bytes with
      | some bracket => .error (.tooNested bracket)
      | none => .ok (some (Json.ofBytes bytes))

/-- The warning about a settings file that is not used. -/
def unusable (file : SettingsFile) (reason : Text) : LogRecord :=
  ⟨.warning, "Failed to load config from " ++ file.name ++ ": " ++ reason⟩

/-- The settings that a content gives. -/
def interpret (file : SettingsFile) : Option (Except ContentFault Json) → Option Settings × Log
  | none => (none, [])
  | some (.error fault) => (none, [file.unusable fault.message])
  | some (.ok value) =>
    match Settings.ofJson value with
    | .ok settings => (some settings, [])
    | .error problems => (none, [file.unusable (SettingsProblem.summary problems)])

/-- The stored settings. -/
def load (file : SettingsFile) (disk : Disk) : Except DiskError (Option Settings × Log) :=
  (file.content? disk).map file.interpret

/-- The bytes of a settings file. -/
def encode (settings : Settings) : Bytes :=
  Utf8.encode settings.toJson.write

/-- Writes the temporary file and puts it in the place of the settings file. -/
def replace (file : SettingsFile) (settings : Settings) (disk : Disk) :
    Disk × Except DiskError Unit :=
  match disk.write file.temporary (encode settings) with
  | (disk, .error error) => (disk, .error error)
  | (disk, .ok ()) => disk.move file.temporary file.path

/-- Stores settings; they are not checked. -/
def save (file : SettingsFile) (settings : Settings) (disk : Disk) : Disk × Except DiskError Unit :=
  match disk.makeFolders file.folder with
  | (disk, .error error) => (disk, .error error)
  | (disk, .ok ()) =>
    match file.replace settings disk with
    | (disk, .ok ()) => (disk, .ok ())
    | (disk, .error error) => ((disk.removeIfThere file.temporary).1, .error error)

/-- Removes the stored settings. -/
def remove (file : SettingsFile) (disk : Disk) : Disk × Except DiskError Unit :=
  disk.removeIfThere file.path

end SettingsFile

end TsQuery
