import Mathlib
import TsQuery.Proofs.Settings.RoundTrip
import TsQuery.Settings.Profile

/-!
# An empty working folder

Settings are stored without an error if their folder can be made and no folder stands in the place
of one of the two files (`SettingsFile.exists_replace_eq_ok`).  So in an empty working folder no
settings are loaded, and all settings can be stored (`Disk.IsFresh`).
-/

namespace TsQuery

namespace Disk

section

variable {disk : Disk} {here location : Location} {names more : List Text}

/-- Folders are made from where the names before lead, if there is a folder. -/
theorem makeFoldersFrom_append (hwalk : disk.walk here names = .ok location)
    (hfolder : disk.node? location = some .folder) :
    disk.makeFoldersFrom here (names ++ more) = disk.makeFoldersFrom location more := by
  induction names generalizing here with
  | nil =>
    cases hwalk
    rfl
  | cons name names ih =>
    cases hstep : disk.step here name with
    | error error =>
      rw [walk, hstep] at hwalk
      cases hwalk
    | ok next =>
      have hfirst : disk.walk here [name] = .ok next := walk_cons hstep
      have hnode := isFolder_of_walk_append hfirst hwalk hfolder
      rw [walk_cons hstep] at hwalk
      rw [List.cons_append, makeFoldersFrom_of_folder hstep hnode]
      exact ih hwalk

end

variable {disk : Disk} {path : Path} {location : Location} {name : Text}

/-- In an empty folder a folder of a plain name is made, which is empty as well. -/
theorem LeadsTo.exists_makeFolders_child (h : disk.LeadsTo path location) (hname : IsPlainName name)
    (herror : pathError? (path.child name) = none) (hempty : disk.IsEmptyBelow location) :
    ∃ made, disk.makeFolders (path.child name) = (made, .ok ()) ∧
      made.LeadsTo (path.child name) (name :: location) ∧ made.IsEmptyBelow (name :: location) := by
  obtain ⟨made, hmade, hwalk, hfolder, hbelow⟩ :=
    makeFoldersFrom_below h.isFolder hempty (List.forall_mem_singleton.2 hname)
  have hmakes : disk.makeFolders (path.child name) = (made, .ok ()) := by
    unfold makeFolders
    rw [herror]
    exact (makeFoldersFrom_append h.walk h.isFolder).trans hmade
  refine ⟨made, hmakes, ⟨?_, hfolder⟩, hbelow⟩
  exact (walk_append (h.of_makeFolders hmakes).walk).trans hwalk

end Disk

namespace SettingsFile

variable {file : SettingsFile} {disk : Disk} {location : Location}

/-- Settings are stored in a folder in which no folder stands in the place of one of the
two files. -/
theorem exists_replace_eq_ok (h : disk.LeadsTo file.folder location)
    (herror : Disk.pathError? file.path = none)
    (hpath : disk.node? (pathAt location) ≠ some .folder)
    (htemporary : disk.node? (temporaryAt location) ≠ some .folder) (settings : Settings) :
    ∃ after, file.replace settings disk = (after, .ok ()) := by
  have hplace := pathError?_temporary herror
  have hwrite := write_temporary_eq h (encode settings)
  rw [hplace] at hwrite
  dsimp only at hwrite
  rw [if_neg htemporary] at hwrite
  have hwrites := Disk.changesOnly_insert htemporary (.file (encode settings))
  have hwritten := h.of_changesOnly hwrites fun l hl => hl ▸ htemporary
  have hmove := move_temporary_eq hwritten hplace (Disk.node?_insert_self h.isFolder _)
  rw [herror, hwrites.node?_eq _ pathAt_ne_temporaryAt] at hmove
  dsimp only at hmove
  rw [if_neg hpath] at hmove
  unfold replace
  rw [hwrite]
  exact ⟨_, hmove⟩

/-- Settings are stored under a base path that leads to an empty folder. -/
theorem exists_save_eq_ok (h : disk.LeadsTo file.base location)
    (hempty : disk.IsEmptyBelow location) (herror : Disk.pathError? file.path = none)
    (settings : Settings) :
    ∃ after, file.save settings disk = (after, .ok ()) := by
  have hfolder : Disk.pathError? file.folder = none := Disk.pathError?_eq_none_of_child herror
  obtain ⟨made, hmakes, hleads, hbelow⟩ :=
    h.exists_makeFolders_child isPlainName_folder hfolder hempty
  have hfree : ∀ name, made.node? (name :: ".tsquery_compiler" :: location) ≠ some .folder := by
    intro name
    refine Disk.node?_ne_folder_of_eq_none (hbelow _ (List.suffix_cons _ _) ?_)
    exact List.cons_ne_self _ _
  obtain ⟨after, hreplace⟩ :=
    exists_replace_eq_ok hleads herror (hfree _) (hfree _) settings
  refine ⟨after, ?_⟩
  unfold save
  rw [folder, hmakes]
  dsimp only
  rw [hreplace]

end SettingsFile

/-! ### Empty working folders -/

/-- Whether the working folder is there and empty, and the path of the settings file under it can be
borne. -/
structure Disk.IsFresh (disk : Disk) : Prop where
  leadsTo : disk.LeadsTo disk.workingPath disk.workingFolder
  isEmptyBelow : disk.IsEmptyBelow disk.workingFolder
  pathError?_eq : Disk.pathError? (SettingsFile.ofBase disk none).path = none

namespace Disk.IsFresh

variable {disk : Disk}

/-- Nothing is seen of the settings file in an empty working folder. -/
theorem holds_eq (h : disk.IsFresh) :
    (SettingsFile.ofBase disk none).Holds disk none := by
  have hstep := step_of_isPlainName h.leadsTo.isFolder SettingsFile.isPlainName_folder
  have hmissing : disk.node? (".tsquery_compiler" :: disk.workingFolder) = none :=
    h.isEmptyBelow _ (List.suffix_cons _ _) (List.cons_ne_self _ _)
  have hview : disk.view (SettingsFile.ofBase disk none).path = .error .notFound := by
    rw [view, h.pathError?_eq]
    calc disk.viewFrom (disk.start disk.workingPath)
          (disk.workingPath.names ++ ([".tsquery_compiler"] : List Text) ++
            (["compiler_config.json"] : List Text))
        = disk.viewFrom disk.workingFolder [".tsquery_compiler", "compiler_config.json"] := by
          rw [viewFrom, List.append_assoc, walk_append h.leadsTo.walk, viewFrom]
          rfl
      _ = disk.viewFrom (".tsquery_compiler" :: disk.workingFolder) ["compiler_config.json"] :=
          viewFrom_cons hstep
      _ = .error .notFound := viewFrom_of_node?_eq_none hmissing (List.cons_ne_nil _ _)
  refine .absent ?_
  rw [Disk.holds_eq, hview]

/-- No settings are loaded in an empty working folder. -/
theorem load_eq (h : disk.IsFresh) :
    Profile.load disk none = .ok (⟨SettingsFile.ofBase disk none, none⟩, []) := by
  unfold Profile.load SettingsFile.load
  dsimp only
  rw [h.holds_eq.content?_eq]
  rfl

/-- All settings can be stored in an empty working folder. -/
theorem exists_save_eq_ok (h : disk.IsFresh) (settings : Settings) :
    ∃ after, (SettingsFile.ofBase disk none).save settings disk = (after, .ok ()) :=
  SettingsFile.exists_save_eq_ok h.leadsTo h.isEmptyBelow h.pathError?_eq settings

end Disk.IsFresh

/-- A disk without entries, at its root. -/
theorem Disk.isFresh_empty : Disk.IsFresh ⟨[], []⟩ := by
  refine ⟨⟨rfl, rfl⟩, fun l _ hne => ?_, by cbv⟩
  cases l with
  | nil => exact absurd rfl hne
  | cons name around => exact ite_self none

end TsQuery
