import Mathlib
import TsQuery.Proofs.Disk.Way
import TsQuery.Proofs.Settings.Encoding
import TsQuery.Proofs.Settings.Storage

/-!
# Storing and loading settings

Settings that are stored without an error are read back as they are, whether in range or not, and
are loaded if they are in range; otherwise nothing is loaded, with one warning
(`SettingsFile.load_save`).  Apart from the settings file and the temporary file, storing changes
folders that were missing on the way of the path and nothing else (`SettingsFile.StoresAt`).
-/

namespace TsQuery

namespace Settings

variable {settings : Settings}

/-- What is wrong with a limit that is out of range. -/
def rangeProblem (n : Int) : SettingsProblem :=
  if n ≤ 0 then .notPositive else .tooGreat

theorem limitProblem?_of_not_inRange {n : Int} (h : ¬InRange n) :
    limitProblem? (.int n) = some (rangeProblem n) := by
  unfold InRange at h
  unfold limitProblem? rangeProblem
  dsimp only
  split_ifs with hpos hgreat
  · rfl
  · rfl
  · omega

/-- Settings in range are described by their JSON. -/
theorem ofJson_toJson_of_inRange (h : InRange settings.maxQueryLength) :
    ofJson settings.toJson = .ok settings := by
  have hproblems : problems settings.toJson = [] := (problems_limit_eq_nil_iff _).2 h
  have hget : Json.Members.get? settings.toMembers limitKey = some (.int settings.maxQueryLength) :=
    List.lookup_cons_self
  have hdescription : ofDescription settings.toJson = settings := by
    rw [toJson, ofDescription, hget]
  rw [ofJson, hproblems, hdescription]
  rfl

/-- The JSON of settings out of range has one problem. -/
theorem ofJson_toJson_of_not_inRange (h : ¬InRange settings.maxQueryLength) :
    ofJson settings.toJson = .error [rangeProblem settings.maxQueryLength] := by
  have hproblems := problems_limit (.int settings.maxQueryLength)
  rw [limitProblem?_of_not_inRange h] at hproblems
  rw [ofJson, toJson, toMembers, hproblems]
  rfl

end Settings

namespace SettingsFile

variable {file : SettingsFile} {settings : Settings} {disk after : Disk} {location : Location}

/-- A disk after settings were stored in a folder, location by location: the settings file has their
bytes, there is no temporary file, on the way to the folder there are folders that were there or
missing, and all else is as it was. -/
structure StoresAt (file : SettingsFile) (settings : Settings) (disk after : Disk)
    (location : Location) : Prop where
  workingFolder_eq : after.workingFolder = disk.workingFolder
  leadsTo : after.LeadsTo file.folder location
  path_eq : after.node? (pathAt location) = some (.file (encode settings))
  temporary_eq : after.node? (temporaryAt location) = none
  onWay_eq : ∀ l, after.OnWay file.folder l → after.node? l = some .folder ∧
    (disk.node? l = none ∨ disk.node? l = some .folder)
  node?_eq : ∀ l, ¬after.OnWay file.folder l → l ≠ pathAt location → l ≠ temporaryAt location →
    after.node? l = disk.node? l

/-- The settings file and the temporary file after settings were stored. -/
theorem Holding.node?_eq (h : file.Holding settings disk after location) :
    after.node? (pathAt location) = some (.file (encode settings)) ∧
      after.node? (temporaryAt location) = none := by
  have hview := h.view_path
  have hgone := h.view_temporary
  have hpath : Disk.pathError? file.path = none := by
    cases herror : Disk.pathError? file.path with
    | none => rfl
    | some error =>
      rw [Disk.view, herror] at hview
      cases hview
  have htemporary := pathError?_temporary hpath
  rw [path, h.leadsTo.view_child isPlainName_path hpath] at hview
  rw [temporary, h.leadsTo.view_child isPlainName_temporary htemporary] at hgone
  constructor
  · split at hview
    · cases hview
    · next hnode =>
      cases hview
      exact hnode
  · split at hgone
    · next hnode => exact hnode
    · cases hgone

/-- Settings that are stored without an error are stored in a folder, and nothing else
is changed. -/
theorem exists_storesAt_of_save (h : file.save settings disk = (after, .ok ())) :
    ∃ location, file.StoresAt settings disk after location := by
  rcases save_cases h with ⟨_, ⟨⟩, -⟩ | ⟨made, location, hmakes, -, ⟨-, hholding⟩ | ⟨_, ⟨⟩, -⟩⟩
  obtain ⟨hworking, hkeeps⟩ := Disk.makeFolders_keeps hmakes
  obtain ⟨hpath, htemporary⟩ := hholding.node?_eq
  have hsame : ∀ l, l ≠ pathAt location → l ≠ temporaryAt location →
      after.node? l = made.node? l := fun l hl hother =>
    hholding.changesOnly.node?_eq l (not_or.2 ⟨hl, hother⟩)
  refine ⟨location, hholding.changesOnly.workingFolder_eq.trans hworking, hholding.leadsTo, hpath,
    htemporary, ?_, ?_⟩
  · intro l hl
    have hfolder := hholding.leadsTo.isFolder_of_onWay hl
    refine ⟨hfolder, ?_⟩
    have hmade : made.node? l = some .folder := by
      rw [← hsame l ?_ ?_, hfolder]
      · rintro rfl
        cases hpath.symm.trans hfolder
      · rintro rfl
        cases htemporary.symm.trans hfolder
    rcases hkeeps l with heq | ⟨hnone, -⟩
    · exact .inr (heq.symm.trans hmade)
    · exact .inl hnone
  · intro l hl hnePath hneTemporary
    rw [hsame l hnePath hneTemporary]
    rcases hkeeps l with heq | ⟨hnone, hmade⟩
    · exact heq
    · have honWay := Disk.onWay_of_makeFolders hmakes hnone hmade
      exact absurd (hholding.leadsTo.onWay_congr hholding.changesOnly.workingFolder_eq honWay) hl

/-- Settings that are stored without an error are read back as they are. -/
theorem content?_of_save (hreadable : settings.IsReadable)
    (hsave : file.save settings disk = (after, .ok ())) :
    file.content? after = .ok (some (.ok settings.toJson)) := by
  rcases save_cases hsave with ⟨_, ⟨⟩, -⟩ | ⟨_, _, -, -, ⟨-, hholding⟩ | ⟨_, ⟨⟩, -⟩⟩
  rw [(holds_of_view hholding.view_path).content?_eq, Option.bind_some,
    Settings.overflowOfBytes?_encode hreadable, Option.map_some, Settings.ofBytes_encode hreadable]

/-- Settings in range are loaded once they are stored without an error. -/
theorem load_of_save (hrange : Settings.InRange settings.maxQueryLength)
    (hsave : file.save settings disk = (after, .ok ())) :
    file.load after = .ok (some settings, []) := by
  have hcontent := content?_of_save (Settings.isReadable_of_inRange hrange) hsave
  rw [load, hcontent, Except.map, interpret, Settings.ofJson_toJson_of_inRange hrange]

/-- Storing and loading undo each other.  Settings with a limit that is not too long to be read, in
range or not, are read back as they are once they are stored without an error, under every base path
and whatever was on the disk.  They are loaded if they are in range; otherwise nothing is loaded,
with one warning.  Nothing else is changed on the disk but that missing folders on the way are there
and the temporary file is gone. -/
theorem load_save (hreadable : settings.IsReadable)
    (hsave : file.save settings disk = (after, .ok ())) :
    file.content? after =
        .ok (some (.ok (.object [(Settings.limitKey, .int settings.maxQueryLength)]))) ∧
      (Settings.InRange settings.maxQueryLength → file.load after = .ok (some settings, [])) ∧
      (¬Settings.InRange settings.maxQueryLength → file.load after = .ok (none,
        [file.unusable
          (SettingsProblem.summary [Settings.rangeProblem settings.maxQueryLength])])) ∧
      ∃ location, file.StoresAt settings disk after location := by
  have hcontent := content?_of_save hreadable hsave
  refine ⟨hcontent, fun hrange => load_of_save hrange hsave, fun hrange => ?_,
    exists_storesAt_of_save hsave⟩
  rw [load, hcontent, Except.map, interpret, Settings.ofJson_toJson_of_not_inRange hrange]

/-- A disk with a settings file that is no JSON, a temporary file that was left, and
another file. -/
def leftoverDisk : Disk where
  entries := [([".tsquery_compiler"], .folder),
    (["compiler_config.json", ".tsquery_compiler"], .file (Utf8.encode "\x7b")),
    (["compiler_config.tmp", ".tsquery_compiler"], .file (Utf8.encode "left")),
    (["notes"], .file (Utf8.encode "kept"))]
  workingFolder := []

/-- A settings file under the base path `x/..`. -/
def detourFile : SettingsFile :=
  ⟨⟨.workingFolder, ["x", ".."]⟩⟩

/-- A limit out of range that is stored over what was left is read back, but not loaded. -/
theorem load_save_of_leftover :
    Settings.IsReadable ⟨-3⟩ ∧ ∃ after, detourFile.save ⟨-3⟩ leftoverDisk = (after, .ok ()) ∧
      detourFile.content? after = .ok (some (.ok (.object [(Settings.limitKey, .int (-3))]))) ∧
      detourFile.load after =
        .ok (none, [detourFile.unusable (SettingsProblem.summary [.notPositive])]) ∧
      ∃ location, detourFile.StoresAt ⟨-3⟩ leftoverDisk after location := by
  have hreadable : Settings.IsReadable ⟨-3⟩ := by decide
  have hrange : ¬Settings.InRange (-3) := by decide
  have hresult : (detourFile.save ⟨-3⟩ leftoverDisk).2 = .ok () := by cbv
  have hsave : detourFile.save ⟨-3⟩ leftoverDisk =
      ((detourFile.save ⟨-3⟩ leftoverDisk).1, .ok ()) := Prod.ext rfl hresult
  obtain ⟨hcontent, -, hload, hstores⟩ := load_save hreadable hsave
  exact ⟨hreadable, _, hsave, hcontent, hload hrange, hstores⟩

end SettingsFile

end TsQuery
