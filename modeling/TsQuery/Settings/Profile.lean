import TsQuery.Settings.Environment
import TsQuery.Settings.File

/-!
# The settings in force

A profile holds the stored settings from when it was loaded. The settings in force are those of the
environment, else the stored ones, else the default; a source that is invalid is passed over with a
warning, and a report lists those sources. Updates go to the stored settings, never to or from the
environment.
-/

namespace TsQuery

/-- A settings file and the settings that were found in it or last put there. -/
structure Profile where
  file : SettingsFile
  stored : Option Settings
  deriving DecidableEq

/-- A source of settings that is passed over, and why. -/
inductive Complaint
  | fileContent (file : Text) (fault : ContentFault)
  | fileSettings (file : Text) (problem : SettingsProblem)
  | variableText (text : Text)
  | variableSettings (problem : SettingsProblem)

/-- A complaint in words. -/
def Complaint.message : Complaint → Text
  | fileContent file fault => file ++ ": not valid JSON (" ++ fault.message ++ ")"
  | fileSettings file problem => file ++ ": " ++ problem.message
  | variableText text => Environment.limitVariable ++ ": not an integer: " ++ text.quoted
  | variableSettings problem => Environment.limitVariable ++ ": " ++ problem.message

/-- Why settings are not updated. -/
inductive UpdateError
  | invalid (problems : List SettingsProblem)
  | disk (error : DiskError)

namespace Profile

/-- Loads the profile of the settings file under a base path. -/
def load (disk : Disk) (base? : Option Text) : Except DiskError (Profile × Log) :=
  let file := SettingsFile.ofBase disk base?
  match file.load disk with
  | .error error => .error error
  | .ok (stored, log) => .ok (⟨file, stored⟩, log)

/-- The stored settings, or the default. -/
def current (profile : Profile) : Settings :=
  profile.stored.getD .default

/-- The settings in force. -/
def settings (profile : Profile) (environment : Environment) : Settings × Log :=
  environment.override profile.current

/-- Checks an update of the stored settings and stores them. -/
def update (profile : Profile) (updates : Json.Members) (disk : Disk) :
    Disk × Except UpdateError Profile :=
  match profile.current.withOverrides updates with
  | .error problems => (disk, .error (.invalid problems))
  | .ok settings =>
    match profile.file.save settings disk with
    | (disk, .error error) => (disk, .error (.disk error))
    | (disk, .ok ()) => (disk, .ok { profile with stored := some settings })

/-- Removes the stored settings. -/
def reset (profile : Profile) (disk : Disk) : Disk × Except DiskError Profile :=
  match profile.file.remove disk with
  | (disk, .error error) => (disk, .error error)
  | (disk, .ok ()) => (disk, .ok { profile with stored := none })

/-- What is wrong with the settings file. -/
def fileComplaints (profile : Profile) (disk : Disk) : Except DiskError (List Complaint) :=
  match profile.file.content? disk with
  | .error error => .error error
  | .ok none => .ok []
  | .ok (some (.error fault)) => .ok [.fileContent profile.file.name fault]
  | .ok (some (.ok value)) =>
    .ok ((Settings.problems value).map (.fileSettings profile.file.name))

/-- What is wrong with the variable for the limit. -/
def variableComplaints (environment : Environment) : List Complaint :=
  match environment.limit? with
  | none => []
  | some text =>
    match Numeral.read? text with
    | none => [.variableText text]
    | some n =>
      (Settings.problems (.object [(Settings.limitKey, .int n)])).map .variableSettings

/-- What is wrong with each source of settings. -/
def complaints (profile : Profile) (environment : Environment) (disk : Disk) :
    Except DiskError (List Complaint) :=
  (profile.fileComplaints disk).map (· ++ variableComplaints environment)

end Profile

end TsQuery
