import Mathlib
import TsQuery.Proofs.Settings.Cell

/-!
# Updates that fail

An update that is refused changes nothing on the disk, and one that fails there leaves no temporary
file and no file other than it was; only one that succeeds stores anything
(`Profile.update_atomic`).  What is seen under the path of the settings file stays the same as well
when an update fails, unless the path leads up again behind a folder that is missing: where `x` is
missing, a failing update makes `x`, and then `x/..` leads to settings that were there before, but
not seen (`Profile.not_forall_view_eq`).
-/

namespace TsQuery

namespace SettingsFile

variable {file : SettingsFile} {disk after : Disk} {settings : Settings}

/-! ### What storing leaves -/

/-- Whether a location is that of the settings file. -/
def IsPath (file : SettingsFile) (disk : Disk) (l : Location) : Prop :=
  ∃ location, disk.LeadsTo file.folder location ∧ l = pathAt location

/-- Whether a location is that of the temporary file. -/
def IsTemporary (file : SettingsFile) (disk : Disk) (l : Location) : Prop :=
  ∃ location, disk.LeadsTo file.folder location ∧ l = temporaryAt location

/-- What there is when settings were stored: the settings file holds them, there is no temporary
file, and all else is as it was, but for folders that were made. -/
structure Stores (file : SettingsFile) (settings : Settings) (disk after : Disk) : Prop where
  view_path : after.view file.path = .ok (.file (encode settings))
  view_temporary : after.view file.temporary = .error .notFound
  node?_eq : ∀ l, ¬file.IsPath after l → ¬file.IsTemporary after l →
    after.node? l = disk.node? l ∨ disk.node? l = none ∧ after.node? l = some .folder

/-- What there is when settings could not be stored: there is no temporary file, and all else is as
it was, but for folders that were made. So the same is found under the path of the settings file,
unless that leads up again behind a folder that was missing. -/
structure Spares (file : SettingsFile) (disk after : Disk) : Prop where
  not_hasFile : ¬after.HasFile file.temporary
  node?_eq : ∀ l, ¬file.IsTemporary after l →
    after.node? l = disk.node? l ∨ disk.node? l = none ∧ after.node? l = some .folder
  view_path : disk.IsDescendingPath file.folder →
    (after.view file.path).toOption = (disk.view file.path).toOption

/-- Settings that are stored without an error are there. -/
theorem stores_of_save (h : file.save settings disk = (after, .ok ())) :
    file.Stores settings disk after := by
  rcases save_cases h with ⟨_, ⟨⟩, -⟩ | ⟨made, location, hmakes, -, ⟨-, hholding⟩ | ⟨_, ⟨⟩, -⟩⟩
  refine ⟨hholding.view_path, hholding.view_temporary, fun l hpath htemporary => ?_⟩
  have hl : ¬(l = pathAt location ∨ l = temporaryAt location) := by
    rintro (heq | heq)
    · exact hpath ⟨location, hholding.leadsTo, heq⟩
    · exact htemporary ⟨location, hholding.leadsTo, heq⟩
  rw [hholding.changesOnly.node?_eq l hl]
  exact (Disk.makeFolders_keeps hmakes).2 l

/-- When storing settings is an error, all but the temporary file is spared. -/
theorem spares_of_save {error : DiskError} (h : file.save settings disk = (after, .error error)) :
    file.Spares disk after := by
  rcases save_cases h with
    ⟨failure, -, hmakes⟩ | ⟨made, location, hmakes, hleads, ⟨⟨⟩, -⟩ | ⟨failure, -, -, hsparing⟩⟩
  · refine ⟨?_, fun l _ => (Disk.makeFolders_keeps hmakes).2 l, fun _ => ?_⟩
    · rintro ⟨content, hview⟩
      have hnone := (Disk.view_child_of_makeFolders hmakes "compiler_config.tmp").1
      rw [temporary] at hview
      rw [hview] at hnone
      cases hnone
    · obtain ⟨hafter, hbefore⟩ := Disk.view_child_of_makeFolders hmakes "compiler_config.json"
      exact hafter.trans hbefore.symm
  · refine ⟨hsparing.not_hasFile, fun l htemporary => ?_, fun hdescending => ?_⟩
    · rw [hsparing.changesOnly.node?_eq l fun heq => htemporary ⟨location, hsparing.leadsTo, heq⟩]
      exact (Disk.makeFolders_keeps hmakes).2 l
    · rw [hsparing.view_path hleads]
      rcases Disk.makeFolders_of_isPlainPath (hdescending.isPlainPath hmakes)
        file.folder_names_ne_nil with ⟨other, hfails⟩ | ⟨other, _, hmade, -, -, hsame⟩
      · cases hmakes.symm.trans hfails
      · cases hmakes.symm.trans hmade
        exact congrArg Except.toOption (hsame _ isPlainName_path)

/-- When storing settings fails because no disk can bear the path, nothing is changed. -/
theorem eq_of_save_of_isPathFault {error : DiskError}
    (h : file.save settings disk = (after, .error error)) (hfault : error.isPathFault = true) :
    after = disk := by
  rcases save_cases h with ⟨_, ⟨⟩, hmakes⟩ | ⟨_, _, _, _, ⟨⟨⟩, -⟩ | ⟨_, ⟨⟩, hno, -⟩⟩
  · exact Disk.makeFolders_of_isPathFault hmakes hfault
  · rw [hno] at hfault
    cases hfault

end SettingsFile

/-! ### Updates -/

/-- Whether an update is refused: the settings are not valid, or no disk can bear the path of their
file, which has a null character or no bytes. All other errors are those of a disk. -/
def UpdateError.IsRefusal : UpdateError → Prop
  | .invalid _ => True
  | .disk error => error.isPathFault = true

namespace Profile

/-- An update stores settings or leaves them as they are, for every base path and whatever is on the
disk.  One that succeeds makes the settings file hold the new settings, and there is no temporary
file.  One that is refused changes nothing at all.  One that fails on the disk leaves no temporary
file and nothing changed but for folders that were made, and the same is found under the path of the
settings file if that does not lead up again behind a folder that was missing.  The profile keeps
its settings unless the update succeeds. -/
theorem update_atomic {profile : Profile} {updates : Json.Members} {disk after : Disk}
    {result : Except UpdateError Profile}
    (hupdate : profile.update updates disk = (after, result)) :
    (∀ next, result = .ok next → ∃ settings,
      profile.current.withOverrides updates = .ok settings ∧
      next = { profile with stored := some settings } ∧
      profile.file.Stores settings disk after ∧
      ∃ log, next.file.load after = .ok (some settings, log)) ∧
    (∀ error, result = .error error →
      profile.apply disk (.update updates) = (after, profile, false) ∧
      (error.IsRefusal → after = disk) ∧
      (¬error.IsRefusal → profile.file.Spares disk after)) := by
  constructor
  · rintro next rfl
    unfold update at hupdate
    split at hupdate
    · cases hupdate
    · next settings hover =>
      split at hupdate
      · cases hupdate
      · next hsave =>
        cases hupdate
        have hstores := SettingsFile.stores_of_save hsave
        exact ⟨settings, hover, rfl, hstores,
          SettingsFile.load_of_view (Settings.withOverrides_spec hover).2 hstores.view_path⟩
  · rintro error rfl
    refine ⟨by rw [apply, hupdate], ?_⟩
    unfold update at hupdate
    split at hupdate
    · cases hupdate
      exact ⟨fun _ => rfl, fun hno => absurd trivial hno⟩
    · split at hupdate
      · next hsave =>
        cases hupdate
        exact ⟨SettingsFile.eq_of_save_of_isPathFault hsave, fun _ =>
          SettingsFile.spares_of_save hsave⟩
      · cases hupdate

/-- A disk with settings under the working folder, with the limit five, and a folder in the place of
the temporary file. -/
def blockedDisk : Disk where
  entries := [([".tsquery_compiler"], .folder),
    (["compiler_config.json", ".tsquery_compiler"],
      .file (Utf8.encode "\x7b\"max_query_length\": 5\x7d")),
    (["compiler_config.tmp", ".tsquery_compiler"], .folder)]
  workingFolder := []

/-- Where there is a folder in the place of the temporary file, an update fails on the disk, and the
settings stay the ones that were stored. -/
theorem update_atomic_of_blocked :
    ∃ profile after, Profile.load blockedDisk none = .ok (profile, []) ∧
      profile.stored = some ⟨5⟩ ∧
      profile.update [(Settings.limitKey, .int 7)] blockedDisk =
        (after, .error (.disk .isFolder)) ∧
      profile.apply blockedDisk (.update [(Settings.limitKey, .int 7)]) = (after, profile, false) ∧
      ¬after.HasFile profile.file.temporary ∧
      (after.view profile.file.path).toOption =
        some (.file (Utf8.encode "\x7b\"max_query_length\": 5\x7d")) := by
  have hload : Profile.load blockedDisk none = .ok (⟨⟨⟨.root, []⟩⟩, some ⟨5⟩⟩, []) := by cbv
  obtain ⟨after, hupdate⟩ : ∃ after, update ⟨⟨⟨.root, []⟩⟩, some ⟨5⟩⟩
      [(Settings.limitKey, .int 7)] blockedDisk = (after, .error (.disk .isFolder)) :=
    ⟨_, by cbv⟩
  have hleads : blockedDisk.LeadsTo (SettingsFile.folder ⟨⟨.root, []⟩⟩) [".tsquery_compiler"] :=
    ⟨by cbv, by cbv⟩
  have hview : blockedDisk.view (SettingsFile.path ⟨⟨.root, []⟩⟩) =
      .ok (.file (Utf8.encode "\x7b\"max_query_length\": 5\x7d")) := by cbv
  obtain ⟨-, hfails⟩ := update_atomic hupdate
  obtain ⟨happly, -, hspares⟩ := hfails _ rfl
  have hdisk : ¬UpdateError.IsRefusal (.disk .isFolder) := by rintro ⟨⟩
  have hspares := hspares hdisk
  refine ⟨_, after, hload, rfl, hupdate, happly, hspares.not_hasFile, ?_⟩
  exact (hspares.view_path hleads.isDescendingPath).trans (congrArg Except.toOption hview)

/-- A profile under the base path `x/..`, where nothing is found. -/
def hiddenProfile : Profile :=
  ⟨⟨⟨.workingFolder, ["x", ".."]⟩⟩, none⟩

/-- Under the base path `x/..`, where `x` is missing, an update that fails on the disk can change
what is found under the path of the settings file: nothing at first, then the settings
beside `x`. -/
theorem not_forall_view_eq :
    ¬∀ (disk after : Disk) (base? : Option Text) (profile : Profile) (log : Log)
        (updates : Json.Members) (error : DiskError),
      Profile.load disk base? = .ok (profile, log) →
      profile.update updates disk = (after, .error (.disk error)) → error.isPathFault = false →
      (after.view profile.file.path).toOption = (disk.view profile.file.path).toOption := by
  intro h
  have hload : Profile.load blockedDisk (some "x/..") = .ok (hiddenProfile, []) := by cbv
  have hfails : (hiddenProfile.update [(Settings.limitKey, .int 7)] blockedDisk).2 =
      .error (.disk .isFolder) := by cbv
  have hbefore : (blockedDisk.view hiddenProfile.file.path).toOption = none := by cbv
  have hafter : ((hiddenProfile.update [(Settings.limitKey, .int 7)] blockedDisk).1.view
      hiddenProfile.file.path).toOption =
        some (.file (Utf8.encode "\x7b\"max_query_length\": 5\x7d")) := by cbv
  have hsame := h _ _ _ _ _ _ _ hload (Prod.ext rfl hfails) rfl
  rw [hbefore, hafter] at hsame
  cases hsame

end Profile

end TsQuery
