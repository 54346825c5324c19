import TsQuery.Disk.Basic

/-!
# Paths on a disk

A path is followed name by name, every name but the last having to stand for a folder that is there;
so `x/..` leads nowhere when there is no `x`. Files are read, written, moved and removed where a
path leads.

An operation that changes the disk answers the disk as it is afterwards beside its outcome, because
folders that were made stay when a later one cannot be made. What fails does so for what is in the
way or missing, or because of the path; an operation for which nothing stands in the way is allowed
and does all of its work.
-/

namespace TsQuery

/-- Why an operation on a disk fails, or why what is on it is not read to the end. -/
inductive DiskError
  | notFound
  | notFolder
  | isFolder
  | tooLong
  | nullCharacter
  | unencodable (fault : Utf8.EncodingFault)
  | tooNested (bracket : CodePoint)
  deriving DecidableEq

/-- Whether an error is one of a path that no disk can bear, rather than one of the disk. -/
def DiskError.isPathFault : DiskError → Bool
  | nullCharacter | unencodable _ => true
  | notFound | notFolder | isFolder | tooLong | tooNested _ => false

namespace Disk

/-- The greatest number of bytes in a name. -/
def maxNameBytes : Nat := 255

/-- Follows one name from a location; two dots lead to the folder around. -/
def step (disk : Disk) (here : Location) (name : Text) : Except DiskError Location :=
  match disk.node? here with
  | none => .error .notFound
  | some (.file _) => .error .notFolder
  | some .folder =>
    if name = ".." then .ok here.tail
    else if maxNameBytes < (Utf8.encodeName name).length then .error .tooLong
    else .ok (name :: here)

/-- Follows names one after another. -/
def walk (disk : Disk) : Location → List Text → Except DiskError Location
  | here, [] => .ok here
  | here, name :: names =>
    match disk.step here name with
    | .error error => .error error
    | .ok next => walk disk next names

/-- The path of the working folder. -/
def workingPath (disk : Disk) : Path :=
  ⟨.root, disk.workingFolder.reverse⟩

/-- The location at which a path begins. -/
def start (disk : Disk) (path : Path) : Location :=
  match path.anchor with
  | .workingFolder => disk.workingFolder
  | _ => []

/-- Why no disk can follow a path, if so. -/
def pathError? (path : Path) : Option DiskError :=
  match path.encodingFault? with
  | some fault => some (.unencodable fault)
  | none =>
    if path.hasNull then some .nullCharacter
    else if path.isTooLong then some .tooLong
    else none

/-- The location to which a path leads; there need be nothing there. -/
def locate (disk : Disk) (path : Path) : Except DiskError Location :=
  match pathError? path with
  | some error => .error error
  | none => disk.walk (disk.start path) path.names

/-- Whether there is something where a path leads. A path that is too long is an error even so. -/
def holds (disk : Disk) (path : Path) : Except DiskError Bool :=
  match disk.locate path with
  | .ok location => .ok (disk.node? location).isSome
  | .error .tooLong => .error .tooLong
  | .error _ => .ok false

/-- The content of a file. -/
def read (disk : Disk) (path : Path) : Except DiskError Bytes :=
  match disk.locate path with
  | .error error => .error error
  | .ok location =>
    match disk.node? location with
    | none => .error .notFound
    | some .folder => .error .isFolder
    | some (.file content) => .ok content

/-- Follows names one after another and makes each folder that is missing. -/
def makeFoldersFrom (disk : Disk) : Location → List Text → Disk × Except DiskError Unit
  | _, [] => (disk, .ok ())
  | here, name :: names =>
    match disk.step here name with
    | .error error => (disk, .error error)
    | .ok next =>
      match disk.node? next with
      | some (.file _) => (disk, .error .notFolder)
      | some .folder => makeFoldersFrom disk next names
      | none => makeFoldersFrom (disk.insert next .folder) next names

/-- Makes a folder and those on the way to it, as far as they are missing. -/
def makeFolders (disk : Disk) (path : Path) : Disk × Except DiskError Unit :=
  match pathError? path with
  | some error => (disk, .error error)
  | none => disk.makeFoldersFrom (disk.start path) path.names

/-- The location at which a file can be written: in a folder, and no folder itself. -/
def fileLocation (disk : Disk) (path : Path) : Except DiskError Location :=
  match disk.locate path with
  | .error error => .error error
  | .ok location =>
    if disk.node? location = some .folder then .error .isFolder
    else if disk.node? location.tail = some .folder then .ok location
    else .error .notFound

/-- Writes a file, whatever it held before. -/
def write (disk : Disk) (path : Path) (content : Bytes) : Disk × Except DiskError Unit :=
  match disk.fileLocation path with
  | .error error => (disk, .error error)
  | .ok location => (disk.insert location (.file content), .ok ())

/-- Removes a file. -/
def remove (disk : Disk) (path : Path) : Disk × Except DiskError Unit :=
  match disk.locate path with
  | .error error => (disk, .error error)
  | .ok location =>
    match disk.node? location with
    | none => (disk, .error .notFound)
    | some .folder => (disk, .error .isFolder)
    | some (.file _) => (disk.erase location, .ok ())

/-- Removes a file if it is there. -/
def removeIfThere (disk : Disk) (path : Path) : Disk × Except DiskError Unit :=
  match disk.holds path with
  | .error error => (disk, .error error)
  | .ok false => (disk, .ok ())
  | .ok true => disk.remove path

/-- Moves a file to where another path leads, in the place of a file that is there. -/
def move (disk : Disk) (source target : Path) : Disk × Except DiskError Unit :=
  match disk.locate source with
  | .error error => (disk, .error error)
  | .ok origin =>
    match disk.node? origin with
    | none => (disk, .error .notFound)
    | some .folder => (disk, .error .isFolder)
    | some (.file content) =>
      match disk.fileLocation target with
      | .error error => (disk, .error error)
      | .ok location => ((disk.erase origin).insert location (.file content), .ok ())

end Disk

end TsQuery
