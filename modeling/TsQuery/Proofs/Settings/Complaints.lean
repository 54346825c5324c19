import TsQuery.Proofs.Settings.InForce

/-!
# Complaints about what is passed over

A report complains about the settings file exactly if the file was passed over with a warning when
the profile was loaded, and about the variable of the environment exactly if it is passed over with
a warning when settings are asked for (`Profile.complaints_tell`).  Loading checks a file as the
report does, but the variable is checked there as part of the settings that it overrides, and by
itself in the report; since the limit is all there is to settings, the outcome is the same
(`Environment.tell_variable`).
-/

namespace TsQuery

/-! ### Sources that are passed over -/

/-- Whether a complaint is about the settings file. -/
def Complaint.isAboutFile : Complaint → Bool
  | fileContent _ _ | fileSettings _ _ => true
  | variableText _ | variableSettings _ => false

/-- Whether a complaint is about the variable for the limit. -/
def Complaint.isAboutVariable (complaint : Complaint) : Bool :=
  !complaint.isAboutFile

/-- Whether there is a settings file, and nothing of it is used. -/
def Profile.IsFilePassedOver (profile : Profile) (disk : Disk) : Prop :=
  disk.holds profile.file.path = .ok true ∧ profile.stored = none

/-- Whether the variable for the limit is set, and no settings are changed by it. -/
def Environment.IsVariablePassedOver (environment : Environment) : Prop :=
  environment.limit? ≠ none ∧ ∀ settings, (environment.override settings).1 = settings

/-- Whether records are one warning. -/
def Log.IsWarning (log : Log) : Prop :=
  ∃ record, log = [record] ∧ record.level = .warning

/-- Whether complaints about a source and the records of using it tell if the source is
passed over. -/
structure Complaint.Tell (complaints : List Complaint) (log : Log) (passedOver : Prop) : Prop where
  complaints_ne_nil_iff : complaints ≠ [] ↔ passedOver
  isWarning_iff : log.IsWarning ↔ passedOver
  log_eq_nil_iff : log = [] ↔ ¬passedOver

namespace Complaint.Tell

variable {complaints : List Complaint} {log : Log} {passedOver : Prop}

theorem of_used (hcomplaints : complaints = []) (hlog : log = []) (h : ¬passedOver) :
    Tell complaints log passedOver where
  complaints_ne_nil_iff := iff_of_false (not_not.2 hcomplaints) h
  isWarning_iff := by
    refine iff_of_false ?_ h
    rintro ⟨record, hrecord, -⟩
    rw [hlog] at hrecord
    cases hrecord
  log_eq_nil_iff := iff_of_true hlog h

theorem of_passedOver (hcomplaints : complaints ≠ []) {record : LogRecord} (hlog : log = [record])
    (hlevel : record.level = .warning) (h : passedOver) : Tell complaints log passedOver where
  complaints_ne_nil_iff := iff_of_true hcomplaints h
  isWarning_iff := iff_of_true ⟨record, hlog, hlevel⟩ h
  log_eq_nil_iff := by
    rw [hlog]
    exact iff_of_false (List.cons_ne_nil record []) (not_not.2 h)

end Complaint.Tell

/-! ### The file -/

/-- A settings file is there exactly if it has a content. -/
theorem SettingsFile.holds_of_content? {file : SettingsFile} {disk : Disk}
    {content : Option (Except ContentFault Json)} (h : file.content? disk = .ok content) :
    disk.holds file.path = .ok content.isSome := by
  unfold content? at h
  split at h
  · cases h
  · next hholds =>
    cases h
    exact hholds
  · next hholds =>
    split at h
    · cases h
    · split at h
      · cases h
      · cases h
        exact hholds

/-- What is loaded from a settings file, and what the file holds. -/
theorem Profile.exists_content_of_load {disk : Disk} {base? : Option Text} {profile : Profile}
    {log : Log} (hload : Profile.load disk base? = .ok (profile, log)) :
    ∃ content, profile.file.content? disk = .ok content ∧
      profile.file.interpret content = (profile.stored, log) := by
  unfold Profile.load at hload
  dsimp only at hload
  split at hload
  · cases hload
  · next stored log hfile =>
    cases hload
    unfold SettingsFile.load at hfile
    cases hcontent : (SettingsFile.ofBase disk base?).content? disk with
    | error error =>
      rw [hcontent] at hfile
      cases hfile
    | ok content =>
      rw [hcontent] at hfile
      exact ⟨content, rfl, Except.ok.inj hfile⟩

/-- The complaints about the file that a profile is loaded from tell if it was passed over. -/
theorem Profile.tell_file {disk : Disk} {base? : Option Text} {profile : Profile} {log : Log}
    (hload : Profile.load disk base? = .ok (profile, log)) :
    ∃ complaints, profile.fileComplaints disk = .ok complaints ∧
      (∀ complaint ∈ complaints, complaint.isAboutFile = true) ∧
      Complaint.Tell complaints log (profile.IsFilePassedOver disk) := by
  obtain ⟨content, hcontent, hinterpret⟩ := exists_content_of_load hload
  have hholds := SettingsFile.holds_of_content? hcontent
  unfold fileComplaints IsFilePassedOver
  rw [hcontent, hholds]
  cases content with
  | none =>
    refine ⟨[], rfl, nofun, .of_used rfl (congrArg Prod.snd hinterpret).symm ?_⟩
    rintro ⟨⟨⟩, -⟩
  | some found =>
    cases found with
    | error fault =>
      refine ⟨_, rfl, List.forall_mem_singleton.2 rfl, ?_⟩
      exact .of_passedOver (List.cons_ne_nil _ _) (congrArg Prod.snd hinterpret).symm rfl
        ⟨rfl, (congrArg Prod.fst hinterpret).symm⟩
    | ok value =>
      refine ⟨_, rfl, List.forall_mem_map.2 fun _ _ => rfl, ?_⟩
      rw [SettingsFile.interpret, Settings.ofJson] at hinterpret
      by_cases hnone : Settings.problems value = []
      · rw [if_pos (List.isEmpty_iff.2 hnone)] at hinterpret
        have hstored : some (Settings.ofDescription value) = profile.stored :=
          congrArg Prod.fst hinterpret
        refine .of_used (List.map_eq_nil_iff.2 hnone) (congrArg Prod.snd hinterpret).symm ?_
        rw [← hstored]
        rintro ⟨-, ⟨⟩⟩
      · rw [if_neg (mt List.isEmpty_iff.1 hnone)] at hinterpret
        exact .of_passedOver (mt List.map_eq_nil_iff.1 hnone) (congrArg Prod.snd hinterpret).symm
          rfl ⟨rfl, (congrArg Prod.fst hinterpret).symm⟩

/-! ### The variable -/

namespace Environment

/-- The variable is passed over exactly if it is set, but not to an integer in range. -/
theorem isVariablePassedOver_iff {environment : Environment} :
    environment.IsVariablePassedOver ↔
      environment.limit? ≠ none ∧ environment.limitInRange? = none := by
  refine and_congr_right fun _ => ⟨fun hsame => ?_, fun hnone settings => ?_⟩
  · -- Settings with another limit are changed by one in range.
    cases hlimit : environment.limitInRange? with
    | none => rfl
    | some n =>
      have hover := environment.override_fst ⟨n + 1⟩
      rw [hsame ⟨n + 1⟩, hlimit, Option.getD_some] at hover
      exact absurd hover (by dsimp only; omega)
  · have hover := environment.override_fst settings
    rw [hnone, Option.getD_none] at hover
    exact congrArg Settings.mk hover

/-- The complaints about the variable for the limit tell if it is passed over, whatever settings it
is to override. -/
theorem tell_variable (environment : Environment) (settings : Settings) :
    (∀ complaint ∈ Profile.variableComplaints environment, complaint.isAboutVariable = true) ∧
      Complaint.Tell (Profile.variableComplaints environment) (environment.override settings).2
        environment.IsVariablePassedOver := by
  rw [isVariablePassedOver_iff]
  unfold Profile.variableComplaints limitInRange?
  cases htext : environment.limit? with
  | none =>
    have hlog : (environment.override settings).2 = [] := by
      rw [override, overrides, htext]
    exact ⟨List.forall_mem_nil _, .of_used rfl hlog fun h => h.1 rfl⟩
  | some text =>
    rw [Option.bind_some]
    dsimp only
    cases hread : Numeral.read? text with
    | none =>
      have hover := override_of_notInteger htext hread settings
      exact ⟨List.forall_mem_singleton.2 rfl, .of_passedOver (List.cons_ne_nil _ _)
        (congrArg Prod.snd hover) rfl ⟨Option.some_ne_none text, rfl⟩⟩
    | some n =>
      have hproblems := Settings.problems_limit_eq_nil_iff n
      refine ⟨List.forall_mem_map.2 fun _ _ => rfl, ?_⟩
      rw [Option.filter_some]
      by_cases hrange : Settings.InRange n
      · have hover := override_of_inRange htext hread hrange settings
        rw [if_pos (decide_eq_true hrange)]
        exact .of_used (List.map_eq_nil_iff.2 (hproblems.2 hrange)) (congrArg Prod.snd hover)
          fun h => Option.some_ne_none n h.2
      · obtain ⟨problems, hover⟩ := override_of_not_inRange htext hread hrange settings
        rw [if_neg (by rwa [decide_eq_true_eq])]
        exact .of_passedOver (mt List.map_eq_nil_iff.1 (mt hproblems.1 hrange))
          (congrArg Prod.snd hover) rfl ⟨Option.some_ne_none text, rfl⟩

end Environment

/-! ### The report -/

namespace Profile

/-- For every settings file from which a profile is loaded and every environment, the report
complains about the file exactly if the file was passed over with a warning, about the variable
exactly if that is passed over with a warning when settings are asked for, and about nothing exactly
if neither is. -/
theorem complaints_tell {disk : Disk} {base? : Option Text} {profile : Profile} {log : Log}
    (hload : Profile.load disk base? = .ok (profile, log)) (environment : Environment) :
    ∃ complaints, profile.complaints environment disk = .ok complaints ∧
      Complaint.Tell (complaints.filter Complaint.isAboutFile) log (profile.IsFilePassedOver disk) ∧
      Complaint.Tell (complaints.filter Complaint.isAboutVariable) (profile.settings environment).2
        environment.IsVariablePassedOver ∧
      (complaints = [] ↔ ¬profile.IsFilePassedOver disk ∧ ¬environment.IsVariablePassedOver) := by
  obtain ⟨file, hfile, hisFile, htellFile⟩ := tell_file hload
  obtain ⟨hisVariable, htellVariable⟩ := environment.tell_variable profile.current
  refine ⟨file ++ variableComplaints environment, ?_, ?_, ?_, ?_⟩
  · rw [complaints, hfile]
    rfl
  · rw [List.filter_append, List.filter_eq_self.2 hisFile, List.filter_eq_nil_iff.2 ?_,
      List.append_nil]
    · exact htellFile
    · intro complaint hcomplaint
      exact Bool.not_eq_true _ ▸ Bool.not_eq_true' _ ▸ hisVariable complaint hcomplaint
  · rw [List.filter_append, List.filter_eq_self.2 hisVariable, List.filter_eq_nil_iff.2 ?_,
      List.nil_append]
    · exact htellVariable
    · intro complaint hcomplaint
      rw [Complaint.isAboutVariable, hisFile complaint hcomplaint]
      decide
  · rw [List.append_eq_nil_iff, ← htellFile.complaints_ne_nil_iff,
      ← htellVariable.complaints_ne_nil_iff, not_not, not_not]

/-- A disk with a settings file under its working folder that holds a list. -/
def listDisk : Disk where
  entries := [([".tsquery_compiler"], .folder),
    (["compiler_config.json", ".tsquery_compiler"], .file (Utf8.encode "[1, 2]"))]
  workingFolder := []

/-- A file that holds a list is passed over, as is a limit that is no integer; a limit that is one
is not. -/
theorem complaints_tell_of_list :
    ∃ profile log complaints others, Profile.load listDisk none = .ok (profile, log) ∧
      log.IsWarning ∧
      profile.complaints ⟨some "1e3", none⟩ listDisk = .ok complaints ∧
      complaints.filter Complaint.isAboutFile ≠ [] ∧
      complaints.filter Complaint.isAboutVariable ≠ [] ∧
      (profile.settings ⟨some "1e3", none⟩).2.IsWarning ∧
      profile.complaints ⟨some "1_000", none⟩ listDisk = .ok others ∧
      others.filter Complaint.isAboutFile ≠ [] ∧
      others.filter Complaint.isAboutVariable = [] ∧
      (profile.settings ⟨some "1_000", none⟩).2 = [] := by
  obtain ⟨log, hload⟩ : ∃ log, Profile.load listDisk none =
      .ok (⟨⟨⟨.root, []⟩⟩, none⟩, log) := ⟨_, by cbv⟩
  have hfile : IsFilePassedOver ⟨⟨⟨.root, []⟩⟩, none⟩ listDisk := ⟨by cbv, rfl⟩
  have hvariable : Environment.IsVariablePassedOver ⟨some "1e3", none⟩ :=
    Environment.isVariablePassedOver_iff.2 ⟨Option.some_ne_none _, by cbv⟩
  have hlimit : Environment.limitInRange? ⟨some "1_000", none⟩ = some 1000 := by cbv
  have hother : ¬Environment.IsVariablePassedOver ⟨some "1_000", none⟩ := fun h =>
    Option.some_ne_none _ (hlimit.symm.trans (Environment.isVariablePassedOver_iff.1 h).2)
  obtain ⟨complaints, hcomplaints, htellFile, htellVariable, -⟩ :=
    complaints_tell hload ⟨some "1e3", none⟩
  obtain ⟨others, hothers, hotherFile, hotherVariable, -⟩ :=
    complaints_tell hload ⟨some "1_000", none⟩
  exact ⟨_, log, complaints, others, hload, htellFile.isWarning_iff.2 hfile, hcomplaints,
    htellFile.complaints_ne_nil_iff.2 hfile, htellVariable.complaints_ne_nil_iff.2 hvariable,
    htellVariable.isWarning_iff.2 hvariable, hothers, hotherFile.complaints_ne_nil_iff.2 hfile,
    not_not.1 (mt hotherVariable.complaints_ne_nil_iff.1 hother),
    hotherVariable.log_eq_nil_iff.2 hother⟩

end Profile

end TsQuery
