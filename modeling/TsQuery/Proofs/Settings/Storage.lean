import Mathlib
import TsQuery.Proofs.Disk.MakeFolders
import TsQuery.Settings.File

/-!
# Storing settings

Storing settings fails when the folder is made, or leaves the folder with the settings in it, or
leaves it as it was but without a temporary file (`SettingsFile.save_cases`).  So on a path that is
plain from its first missing folder on, the settings file holds the settings or what is seen there
is as it was (`SettingsFile.save_spec`); removing the file leaves nothing there or changes nothing
(`SettingsFile.remove_spec`).  This holds whatever fails on the way: making folders, writing the
temporary file, or putting it in the place of the other.
-/

namespace TsQuery

namespace SettingsFile

variable {file : SettingsFile} {disk : Disk} {location : Location}

theorem isPlainName_folder : Disk.IsPlainName ".tsquery_compiler" := by
  decide

theorem isPlainName_path : Disk.IsPlainName "compiler_config.json" := by
  decide

theorem isPlainName_temporary : Disk.IsPlainName "compiler_config.tmp" := by
  decide

theorem folder_names_ne_nil (file : SettingsFile) : file.folder.names ≠ [] :=
  List.append_ne_nil_of_right_ne_nil _ (List.cons_ne_nil _ _)

/-- The location of the settings file in its folder. -/
abbrev pathAt (location : Location) : Location :=
  ("compiler_config.json" : Text) :: location

/-- The location of the temporary file in the folder. -/
abbrev temporaryAt (location : Location) : Location :=
  ("compiler_config.tmp" : Text) :: location

theorem pathAt_ne_temporaryAt : pathAt location ≠ temporaryAt location := by
  intro heq
  exact absurd (List.cons.inj heq).1 (by decide)

/-! ### The temporary file -/

/-- The temporary file can be borne where the settings file can. -/
theorem pathError?_temporary (h : Disk.pathError? file.path = none) :
    Disk.pathError? file.temporary = none := by
  have hnames := file.folder_names_ne_nil
  have hshorter : (Utf8.encodeName (slash :: ("compiler_config.tmp" : Text))).length ≤
      (Utf8.encodeName (slash :: ("compiler_config.json" : Text))).length := by decide
  obtain ⟨hfault, hnull, hlong⟩ := Disk.pathError?_eq_none_iff.1 h
  rw [path, Disk.hasNull_child, Bool.or_eq_false_iff] at hnull
  refine Disk.pathError?_eq_none_iff.2 ⟨?_, ?_, ?_⟩
  · exact Disk.encodingFault?_child.2 ⟨(Disk.encodingFault?_child.1 hfault).1, by decide⟩
  · rw [temporary, Disk.hasNull_child, hnull.1]
    decide
  · unfold Path.isTooLong at hlong ⊢
    rw [decide_eq_false_iff_not, path, Disk.toText_child hnames, Utf8.encodeName,
      List.flatMap_append, List.length_append] at hlong
    rw [decide_eq_false_iff_not, temporary, Disk.toText_child hnames, Utf8.encodeName,
      List.flatMap_append, List.length_append]
    exact fun hlt => hlong (hlt.trans_le (Nat.add_le_add_left hshorter _))

/-- What writing the temporary file does. -/
theorem write_temporary_eq (h : disk.LeadsTo file.folder location) (content : Bytes) :
    disk.write file.temporary content =
      match Disk.pathError? file.temporary with
      | some error => (disk, .error error)
      | none =>
        if disk.node? (temporaryAt location) = some .folder then (disk, .error .isFolder)
        else (disk.insert (temporaryAt location) (.file content), .ok ()) := by
  unfold Disk.write
  rw [temporary, h.fileLocation_child isPlainName_temporary]
  cases Disk.pathError? (file.folder.child "compiler_config.tmp") with
  | some error => rfl
  | none =>
    dsimp only
    split_ifs
    · rfl
    · rfl

/-- Writing the temporary file fails and changes nothing, or puts it into the folder, where there is
no folder of its name. -/
theorem write_temporary (h : disk.LeadsTo file.folder location) (content : Bytes) :
    (∃ error, disk.write file.temporary content = (disk, .error error)) ∨
      disk.node? (temporaryAt location) ≠ some .folder ∧
        Disk.pathError? file.temporary = none ∧
        disk.write file.temporary content =
          (disk.insert (temporaryAt location) (.file content), .ok ()) := by
  rw [write_temporary_eq h]
  cases Disk.pathError? file.temporary with
  | some error => exact Or.inl ⟨error, rfl⟩
  | none =>
    dsimp only
    by_cases hfolder : disk.node? (temporaryAt location) = some .folder
    · rw [if_pos hfolder]
      exact Or.inl ⟨_, rfl⟩
    · rw [if_neg hfolder]
      exact Or.inr ⟨hfolder, rfl, rfl⟩

/-- Removing the temporary file, if it is there, changes nothing else and leaves no file of its
name. -/
theorem removeIfThere_temporary (h : disk.LeadsTo file.folder location) :
    let after := (disk.removeIfThere file.temporary).1
    after.LeadsTo file.folder location ∧ disk.ChangesOnly after (· = temporaryAt location) ∧
      ¬after.HasFile file.temporary := by
  dsimp only
  rw [Disk.removeIfThere_fst]
  cases herror : Disk.pathError? file.temporary with
  | some error =>
    have hno : ¬disk.HasFile file.temporary := by
      rintro ⟨content, hview⟩
      rw [Disk.view, herror] at hview
      cases hview
    rw [Disk.locate, herror]
    exact ⟨h, .refl disk _, hno⟩
  | none =>
    have hlocate : disk.locate file.temporary = .ok (temporaryAt location) :=
      h.locate_child isPlainName_temporary herror
    have hfile := h.hasFile_child_iff isPlainName_temporary herror
    rw [hlocate]
    dsimp only
    split
    · next content hnode =>
      have hno := Disk.node?_ne_folder_of_eq_file hnode
      have hchanges := Disk.changesOnly_erase hno
      have hafter := h.of_changesOnly hchanges fun l hl => hl ▸ hno
      refine ⟨hafter, hchanges, ?_⟩
      have hgone : (disk.erase (temporaryAt location)).node? (temporaryAt location) = none :=
        Disk.node?_erase_self disk (List.cons_ne_nil _ _)
      rw [temporary, hafter.hasFile_child_iff isPlainName_temporary herror, hgone]
      rintro ⟨_, ⟨⟩⟩
    · next hnode =>
      refine ⟨h, .refl disk _, fun hhas => ?_⟩
      obtain ⟨content, hcontent⟩ := hfile.1 hhas
      exact hnode content hcontent

/-! ### Storing -/

/-- What there is when settings were stored in a folder that is there: the settings file holds them,
the temporary file is gone, and all else is as it was. -/
structure Holding (file : SettingsFile) (settings : Settings) (disk after : Disk)
    (location : Location) : Prop where
  leadsTo : after.LeadsTo file.folder location
  changesOnly : disk.ChangesOnly after fun l => l = pathAt location ∨ l = temporaryAt location
  view_path : after.view file.path = .ok (.file (encode settings))
  view_temporary : after.view file.temporary = .error .notFound

/-- What there is when settings could not be stored in a folder that is there: there is no temporary
file, and all else is as it was. -/
structure Sparing (file : SettingsFile) (disk after : Disk) (location : Location) : Prop where
  leadsTo : after.LeadsTo file.folder location
  changesOnly : disk.ChangesOnly after (· = temporaryAt location)
  not_hasFile : ¬after.HasFile file.temporary

/-- The same is seen of the settings file when settings could not be stored. -/
theorem Sparing.view_path {after : Disk} (h : file.Sparing disk after location)
    (hbefore : disk.LeadsTo file.folder location) : after.view file.path = disk.view file.path :=
  hbefore.view_child_congr h.leadsTo isPlainName_path
    (h.changesOnly.node?_eq _ pathAt_ne_temporaryAt)

/-- What putting the temporary file in the place of the settings file does. -/
theorem move_temporary_eq (h : disk.LeadsTo file.folder location) {content : Bytes}
    (herror : Disk.pathError? file.temporary = none)
    (hnode : disk.node? (temporaryAt location) = some (.file content)) :
    disk.move file.temporary file.path =
      match Disk.pathError? file.path with
      | some error => (disk, .error error)
      | none =>
        if disk.node? (pathAt location) = some .folder then (disk, .error .isFolder)
        else
          ((disk.erase (temporaryAt location)).insert (pathAt location) (.file content),
            .ok ()) := by
  have hlocate : disk.locate file.temporary = .ok (temporaryAt location) :=
    h.locate_child isPlainName_temporary herror
  unfold Disk.move
  rw [hlocate]
  dsimp only
  rw [hnode]
  dsimp only
  rw [path, h.fileLocation_child isPlainName_path]
  cases Disk.pathError? (file.folder.child "compiler_config.json") with
  | some error => rfl
  | none =>
    dsimp only
    split_ifs
    · rfl
    · rfl

/-- Putting the temporary file in the place of the settings file fails and changes nothing, or makes
the settings file hold what the temporary file held. -/
theorem move_temporary (h : disk.LeadsTo file.folder location) {settings : Settings}
    (herror : Disk.pathError? file.temporary = none)
    (hnode : disk.node? (temporaryAt location) = some (.file (encode settings))) :
    (∃ error, disk.move file.temporary file.path = (disk, .error error)) ∨
      ∃ after, disk.move file.temporary file.path = (after, .ok ()) ∧
        file.Holding settings disk after location := by
  have hno := Disk.node?_ne_folder_of_eq_file hnode
  rw [move_temporary_eq h herror hnode]
  cases hpath : Disk.pathError? file.path with
  | some error => exact Or.inl ⟨error, rfl⟩
  | none =>
    dsimp only
    by_cases hfolder : disk.node? (pathAt location) = some .folder
    · rw [if_pos hfolder]
      exact Or.inl ⟨_, rfl⟩
    · rw [if_neg hfolder]
      refine Or.inr ⟨_, rfl, ?_⟩
      have herases := Disk.changesOnly_erase hno
      have herased := h.of_changesOnly herases fun l hl => hl ▸ hno
      have hnopath :
          (disk.erase (temporaryAt location)).node? (pathAt location) ≠ some .folder := by
        rw [herases.node?_eq _ pathAt_ne_temporaryAt]
        exact hfolder
      have hinserts := Disk.changesOnly_insert hnopath (.file (encode settings))
      have hmoved := herased.of_changesOnly hinserts fun l hl => hl ▸ hnopath
      refine ⟨hmoved, ?_, ?_, ?_⟩
      · exact (herases.mono fun _ => .inr).trans (hinserts.mono fun _ => .inl)
      · rw [path, hmoved.view_child isPlainName_path hpath,
          Disk.node?_insert_self herased.isFolder]
      · rw [temporary, hmoved.view_child isPlainName_temporary herror,
          hinserts.node?_eq _ pathAt_ne_temporaryAt.symm,
          Disk.node?_erase_self disk (List.cons_ne_nil _ _)]

/-- Writing settings to the temporary file and putting it in the place of the settings file makes
that hold them, or changes the temporary file only. -/
theorem replace_spec (h : disk.LeadsTo file.folder location) (settings : Settings) :
    (∃ after, file.replace settings disk = (after, .ok ()) ∧
      file.Holding settings disk after location) ∨
    ∃ after error, file.replace settings disk = (after, .error error) ∧
      after.LeadsTo file.folder location ∧ disk.ChangesOnly after (· = temporaryAt location) := by
  unfold replace
  rcases write_temporary h (encode settings) with ⟨error, hwrite⟩ | ⟨hno, herror, hwrite⟩
  · rw [hwrite]
    exact Or.inr ⟨disk, error, rfl, h, .refl disk _⟩
  · rw [hwrite]
    dsimp only
    have hwrites := Disk.changesOnly_insert hno (.file (encode settings))
    have hwritten := h.of_changesOnly hwrites fun l hl => hl ▸ hno
    rcases move_temporary hwritten herror (Disk.node?_insert_self h.isFolder _) with
      ⟨error, hmove⟩ | ⟨after, hmove, hholding⟩
    · exact Or.inr ⟨_, error, hmove, hwritten, hwrites⟩
    · refine Or.inl
        ⟨after, hmove, hholding.leadsTo, ?_, hholding.view_path, hholding.view_temporary⟩
      exact (hwrites.mono fun _ => .inr).trans hholding.changesOnly

/-- The names in the folder of the settings have bytes and no null character. -/
theorem isPathFault_of_file {error : DiskError} (hfolder : Disk.pathError? file.folder = none)
    (h : Disk.pathError? file.path = some error ∨ Disk.pathError? file.temporary = some error) :
    error.isPathFault = false := by
  rcases h with h | h
  · exact Disk.isPathFault_of_child hfolder (by decide) (by decide) h
  · exact Disk.isPathFault_of_child hfolder (by decide) (by decide) h

/-- Where the folder can be borne, putting settings into it never complains about a path. -/
theorem isPathFault_of_replace {settings : Settings} {after : Disk} {error : DiskError}
    (hfolder : Disk.pathError? file.folder = none)
    (h : file.replace settings disk = (after, .error error)) : error.isPathFault = false := by
  by_contra hfault
  rw [Bool.not_eq_false] at hfault
  refine absurd (isPathFault_of_file hfolder ?_) (by rw [hfault]; decide)
  unfold replace at h
  split at h
  · next hwrite =>
    cases h
    exact Or.inr (Disk.pathError?_of_write hfault hwrite)
  · exact (Disk.pathError?_of_move hfault h).symm

/-- How storing settings ends: the folder cannot be made, or it is made and holds the settings, or
it is made and all but the temporary file in it is as it was. -/
theorem save_cases {settings : Settings} {after : Disk} {result : Except DiskError Unit}
    (h : file.save settings disk = (after, result)) :
    (∃ error, result = .error error ∧ disk.makeFolders file.folder = (after, .error error)) ∨
    ∃ made location, disk.makeFolders file.folder = (made, .ok ()) ∧
      made.LeadsTo file.folder location ∧
      (result = .ok () ∧ file.Holding settings made after location ∨
        ∃ error, result = .error error ∧ error.isPathFault = false ∧
          file.Sparing made after location) := by
  unfold save at h
  rcases hmakes : disk.makeFolders file.folder with ⟨made, error | ⟨⟩⟩
  · rw [hmakes] at h
    cases h
    exact Or.inl ⟨error, rfl, rfl⟩
  · rw [hmakes] at h
    dsimp only at h
    obtain ⟨herror, location, hleads⟩ :=
      Disk.exists_leadsTo_of_makeFolders file.folder_names_ne_nil hmakes
    refine Or.inr ⟨made, location, rfl, hleads, ?_⟩
    rcases replace_spec hleads settings with
      ⟨stored, hreplace, hholding⟩ | ⟨written, error, hreplace, hwritten, hwrites⟩
    · rw [hreplace] at h
      cases h
      exact Or.inl ⟨rfl, hholding⟩
    · have hfault := isPathFault_of_replace herror hreplace
      rw [hreplace] at h
      cases h
      obtain ⟨hremoved, hremoves, hno⟩ := removeIfThere_temporary hwritten
      exact Or.inr ⟨error, rfl, hfault, hremoved, hwrites.trans hremoves, hno⟩

/-- Storing settings on a path that is plain from its first missing folder on makes the settings
file hold them, or leaves what is seen of it as it is. -/
theorem save_spec (hplain : disk.IsPlainPath file.base) (settings : Settings) :
    ∃ after result, file.save settings disk = (after, result) ∧
      after.IsPlainPath file.base ∧ after.workingFolder = disk.workingFolder ∧
      (result = .ok () → after.view file.path = .ok (.file (encode settings))) ∧
      ∀ error, result = .error error → after.view file.path = disk.view file.path := by
  rcases hsave : file.save settings disk with ⟨after, result⟩
  refine ⟨after, result, rfl, ?_⟩
  have hmakeFolders := Disk.makeFolders_of_isPlainPath (hplain.child isPlainName_folder)
    file.folder_names_ne_nil
  rcases save_cases hsave with
    ⟨error, rfl, hmakes⟩ | ⟨made, location, hmakes, hleads, hstored⟩
  · rcases hmakeFolders with ⟨other, hsame⟩ | ⟨made, location, hmade, -⟩
    · cases hmakes.symm.trans hsame
      exact ⟨hplain, rfl, nofun, fun _ _ => rfl⟩
    · cases hmakes.symm.trans hmade
  · rcases hmakeFolders with ⟨other, hsame⟩ | ⟨other, _, hmade, -, hworking, hsame⟩
    · cases hmakes.symm.trans hsame
    · cases hmakes.symm.trans hmade
      rcases hstored with ⟨rfl, hholding⟩ | ⟨error, rfl, -, hsparing⟩
      · exact ⟨Disk.isPlainPath_of_child hholding.leadsTo,
          hholding.changesOnly.workingFolder_eq.trans hworking, fun _ => hholding.view_path, nofun⟩
      · refine ⟨Disk.isPlainPath_of_child hsparing.leadsTo,
          hsparing.changesOnly.workingFolder_eq.trans hworking, nofun, fun _ _ => ?_⟩
        exact (hsparing.view_path hleads).trans (hsame _ isPlainName_path)

/-! ### Removing -/

/-- Nothing is there where the settings file was erased. -/
theorem erase_spec {content : Bytes} (hlocate : disk.locate file.path = .ok location)
    (hnode : disk.node? location = some (.file content)) :
    (disk.erase location).IsPlainPath file.base ∧
      (disk.erase location).holds file.path = .ok false := by
  have hno := Disk.node?_ne_folder_of_eq_file hnode
  have hfolders : ∀ l, disk.node? l = some .folder →
      (disk.erase location).node? l = some .folder := by
    intro l hl
    rw [Disk.node?_erase_of_ne hno (fun heq => hno (heq ▸ hl)), hl]
  have hroot : location ≠ [] := by
    rintro rfl
    exact hno rfl
  unfold Disk.locate at hlocate
  cases herror : Disk.pathError? file.path with
  | some error =>
    rw [herror] at hlocate
    cases hlocate
  | none =>
    rw [herror] at hlocate
    have hwalk : (disk.erase location).walk (disk.start file.path) file.path.names =
        .ok location := Disk.walk_of_folders hfolders hlocate
    constructor
    · obtain ⟨folder, hfolder, -⟩ := Disk.exists_walk_of_append hwalk
      obtain ⟨base, hbase, -⟩ := Disk.exists_walk_of_append hfolder
      exact Disk.isPlainFrom_of_walk hbase
    · unfold Disk.holds Disk.locate
      rw [herror]
      dsimp only
      have hstart : (disk.erase location).start file.path = disk.start file.path := rfl
      rw [hstart, hwalk]
      dsimp only
      rw [Disk.node?_erase_self disk hroot]
      rfl

/-- Removing the settings file leaves nothing to be seen of it, or changes nothing. -/
theorem remove_spec (hplain : disk.IsPlainPath file.base) :
    ∃ after result, file.remove disk = (after, result) ∧
      after.IsPlainPath file.base ∧ after.workingFolder = disk.workingFolder ∧
      (result = .ok () → after.holds file.path = .ok false) ∧
      ∀ error, result = .error error → after = disk := by
  unfold remove Disk.removeIfThere
  cases hholds : disk.holds file.path with
  | error error => exact ⟨_, _, rfl, hplain, rfl, nofun, fun _ _ => rfl⟩
  | ok there =>
    cases there with
    | false => exact ⟨_, _, rfl, hplain, rfl, fun _ => hholds, fun _ _ => rfl⟩
    | true =>
      dsimp only
      unfold Disk.remove
      cases hlocate : disk.locate file.path with
      | error error => exact ⟨_, _, rfl, hplain, rfl, nofun, fun _ _ => rfl⟩
      | ok location =>
        dsimp only
        cases hnode : disk.node? location with
        | none => exact ⟨_, _, rfl, hplain, rfl, nofun, fun _ _ => rfl⟩
        | some node =>
          cases node with
          | folder => exact ⟨_, _, rfl, hplain, rfl, nofun, fun _ _ => rfl⟩
          | file content =>
            obtain ⟨hplainafter, hgone⟩ := erase_spec hlocate hnode
            exact ⟨_, _, rfl, hplainafter, rfl, fun _ => hgone, nofun⟩

end SettingsFile

end TsQuery
