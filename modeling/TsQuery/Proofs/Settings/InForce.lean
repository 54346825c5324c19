import Mathlib
import TsQuery.Settings.Profile

/-!
# The limit in force

A description of settings has no problem exactly if it is an object with no field but the limit,
which is an integer in range if it is there (`Settings.problems_eq_nil_iff`).  So for every content
of the settings file and every environment, the limit in force is that of the environment if it is
an integer in range, else that of the file if the file describes settings, else the default
(`Profile.maxQueryLength_eq_limitInForce`).  Only a file with too many arrays and objects within
each other gives no settings at all (`Profile.load_eq_error`).
-/

namespace TsQuery

/-! ### The documented precedence -/

/-- Whether a limit is in range. -/
def Settings.InRange (n : Int) : Prop :=
  1 ≤ n ∧ n ≤ Settings.maxLimit

instance (n : Int) : Decidable (Settings.InRange n) :=
  inferInstanceAs (Decidable (_ ∧ _))

/-- The limit that the environment gives, if it is an integer in range. -/
def Environment.limitInRange? (environment : Environment) : Option Int :=
  (environment.limit?.bind Numeral.read?).filter fun n => decide (Settings.InRange n)

/-- The limit that a JSON value describes: an object with no field but the limit, which is an
integer in range, or the default if it is missing. -/
def Settings.described? : Json → Option Int
  | .object members =>
    if ∀ member ∈ members, member.1 = Settings.limitKey then
      match Json.Members.get? members Settings.limitKey with
      | none => some Query.defaultLimit
      | some (.int n) => if Settings.InRange n then some n else none
      | some _ => none
    else none
  | _ => none

/-- The limit that the bytes of a settings file describe. -/
def Settings.describedByBytes? (bytes : Bytes) : Option Int :=
  match Json.ofBytes bytes with
  | .ok value => Settings.described? value
  | .error _ => none

/-- The limit that is in force, given what the settings file holds, if it is there, and the
environment: that of the environment, else that of the file, else the default. -/
def limitInForce (content : Option Bytes) (environment : Environment) : Int :=
  environment.limitInRange?.getD
    ((content.bind Settings.describedByBytes?).getD Query.defaultLimit)

/-- What a settings file holds on a disk: nothing if it is not there, else the bytes that are read.
Looking for it and reading it are no error. -/
inductive SettingsFile.Holds (file : SettingsFile) (disk : Disk) : Option Bytes → Prop
  | absent (h : disk.holds file.path = .ok false) : Holds file disk none
  | present {bytes : Bytes} (h : disk.holds file.path = .ok true)
    (hread : disk.read file.path = .ok bytes) : Holds file disk (some bytes)

/-! ### Descriptions without problems -/

namespace Settings

/-- A limit is no problem exactly if it is an integer in range. -/
theorem limitProblem?_eq_none_iff {value : Json} :
    limitProblem? value = none ↔ ∃ n, value = .int n ∧ InRange n := by
  cases value with
  | int n =>
    have hrange : limitProblem? (.int n) = none ↔ InRange n := by
      unfold limitProblem? InRange
      dsimp only
      split_ifs with hpos hgreat
      · exact iff_of_false nofun (by omega)
      · exact iff_of_false nofun (by omega)
      · exact iff_of_true rfl (by omega)
    rw [hrange]
    exact ⟨fun h => ⟨n, rfl, h⟩, fun ⟨m, heq, h⟩ => Json.int.inj heq ▸ h⟩
  | _ => exact iff_of_false nofun nofun

theorem sortedSet_eq_nil_iff {words : List Text} : Text.sortedSet words = [] ↔ words = [] := by
  simp only [List.eq_nil_iff_forall_not_mem, Text.mem_sortedSet]

/-- No field is unknown exactly if all are the limit. -/
theorem unknownFields_eq_nil_iff {members : Json.Members} :
    unknownFields members = [] ↔ ∀ member ∈ members, member.1 = limitKey := by
  rw [unknownFields, sortedSet_eq_nil_iff, List.filter_eq_nil_iff, List.forall_mem_map]
  simp only [bne_iff_ne, ne_eq, not_not]

/-- The problems of a description are none exactly if it is an object with no field but the limit,
which is an integer in range if it is there. -/
theorem problems_eq_nil_iff {value : Json} :
    problems value = [] ↔ ∃ members, value = .object members ∧
      (∀ member ∈ members, member.1 = limitKey) ∧
      ∀ limit, Json.Members.get? members limitKey = some limit →
        ∃ n, limit = .int n ∧ InRange n := by
  cases value with
  | object members =>
    have hlimit : ((Json.Members.get? members limitKey).bind limitProblem?).toList = [] ↔
        ∀ limit, Json.Members.get? members limitKey = some limit →
          ∃ n, limit = .int n ∧ InRange n := by
      cases hget : Json.Members.get? members limitKey with
      | none => exact iff_of_true rfl nofun
      | some limit =>
        rw [Option.bind_some, Option.toList_eq_nil_iff, limitProblem?_eq_none_iff]
        exact ⟨fun h other heq => Option.some.inj heq ▸ h, fun h => h limit rfl⟩
    rw [problems, List.append_eq_nil_iff, List.map_eq_nil_iff, unknownFields_eq_nil_iff, hlimit]
    refine ⟨fun h => ⟨members, rfl, h⟩, ?_⟩
    rintro ⟨_, ⟨⟩, h⟩
    exact h
  | _ => exact iff_of_false nofun nofun

/-- The limit that is described is that of the settings that the description gives, if it has no
problems. -/
theorem described?_eq (value : Json) :
    described? value =
      if problems value = [] then some (ofDescription value).maxQueryLength else none := by
  have hproblems := @problems_eq_nil_iff value
  cases value with
  | object members =>
    unfold described? ofDescription
    dsimp only
    by_cases hkeys : ∀ member ∈ members, member.1 = limitKey
    · rw [if_pos hkeys]
      cases hget : Json.Members.get? members limitKey with
      | none =>
        have hnone : problems (.object members) = [] :=
          hproblems.2 ⟨members, rfl, hkeys, fun limit heq => absurd (hget.symm.trans heq) nofun⟩
        rw [if_pos hnone]
        rfl
      | some limit =>
        have hiff : problems (.object members) = [] ↔ ∃ n, limit = .int n ∧ InRange n := by
          rw [hproblems]
          constructor
          · rintro ⟨_, ⟨⟩, -, h⟩
            exact h limit hget
          · exact fun h => ⟨members, rfl, hkeys, fun other heq =>
              Option.some.inj (hget.symm.trans heq) ▸ h⟩
        cases limit with
        | int n =>
          by_cases hrange : InRange n
          · rw [if_pos (hiff.2 ⟨n, rfl, hrange⟩)]
            exact if_pos hrange
          · have hnone : ¬problems (.object members) = [] := by
              rw [hiff]
              rintro ⟨_, ⟨⟩, h⟩
              exact hrange h
            rw [if_neg hnone]
            exact if_neg hrange
        | _ => rw [if_neg (mt hiff.1 nofun)]
    · have hnone : ¬problems (.object members) = [] := by
        rw [hproblems]
        rintro ⟨_, ⟨⟩, h, -⟩
        exact hkeys h
      rw [if_neg hkeys, if_neg hnone]
  | _ => rfl

/-- A limit by itself is described exactly if it is in range. -/
theorem described?_limit (n : Int) :
    described? (.object [(limitKey, .int n)]) = if InRange n then some n else none := by
  have hget : Json.Members.get? [(limitKey, .int n)] limitKey = some (.int n) :=
    List.lookup_cons_self
  have hkeys : ∀ member ∈ [(limitKey, Json.int n)], member.1 = limitKey :=
    List.forall_mem_singleton.2 rfl
  unfold described?
  dsimp only
  rw [if_pos hkeys, hget]

/-- A limit by itself has no problems exactly if it is in range. -/
theorem problems_limit_eq_nil_iff (n : Int) :
    problems (.object [(limitKey, .int n)]) = [] ↔ InRange n := by
  have hdescribed := (described?_eq _).symm.trans (described?_limit n)
  split_ifs at hdescribed with hproblems hrange hrange
  · exact iff_of_true hproblems hrange
  · exact iff_of_false hproblems hrange

/-- What is wrong with a value for the limit by itself. -/
theorem problems_limit (value : Json) :
    problems (.object [(limitKey, value)]) = (limitProblem? value).toList := by
  have hget : Json.Members.get? [(limitKey, value)] limitKey = some value := List.lookup_cons_self
  have hunknown : unknownFields [(limitKey, value)] = [] :=
    unknownFields_eq_nil_iff.2 (List.forall_mem_singleton.2 rfl)
  rw [problems, hunknown, hget]
  rfl

/-- A value that is set for the limit is all that is checked. -/
theorem withOverrides_limit (settings : Settings) (value : Json) :
    settings.withOverrides [(limitKey, value)] = ofJson (.object [(limitKey, value)]) := by
  have hset : settings.toMembers.setAll [(limitKey, value)] = [(limitKey, value)] := by
    simp [toMembers, Json.Members.setAll, Json.Members.set]
  rw [withOverrides, hset]

/-- A limit that is described is in range. -/
theorem inRange_of_described? {value : Json} {n : Int} (h : described? value = some n) :
    InRange n := by
  unfold described? at h
  split at h
  · split at h
    · split at h
      · cases h
        decide
      · split at h
        · next hrange =>
          cases h
          exact hrange
        · cases h
      · cases h
    · cases h
  · cases h

/-- A description is accepted exactly if it describes a limit, which is then set. -/
theorem toOption_ofJson (value : Json) :
    (ofJson value).toOption = (described? value).map Settings.mk := by
  rw [described?_eq, ofJson]
  by_cases hnone : problems value = []
  · rw [if_pos (List.isEmpty_iff.2 hnone), if_pos hnone]
    rfl
  · rw [if_neg (mt List.isEmpty_iff.1 hnone), if_neg hnone]
    rfl

end Settings

/-! ### Files and environments -/

/-- The bytes of a file give the settings that they describe. -/
theorem SettingsFile.interpret_fst (file : SettingsFile) (bytes : Bytes) :
    (file.interpret (some (Json.ofBytes bytes))).1 =
      (Settings.describedByBytes? bytes).map Settings.mk := by
  unfold Settings.describedByBytes? SettingsFile.interpret
  cases Json.ofBytes bytes with
  | error fault => rfl
  | ok value =>
    have hoption := Settings.toOption_ofJson value
    dsimp only
    rw [← hoption]
    cases Settings.ofJson value with
    | error problems => rfl
    | ok settings => rfl

/-- The content of a settings file is what it holds, unless reading that breaks off. -/
theorem SettingsFile.Holds.content?_eq {file : SettingsFile} {disk : Disk} {content : Option Bytes}
    (h : file.Holds disk content) :
    file.content? disk =
      match content.bind Json.overflowOfBytes? with
      | some bracket => .error (.tooNested bracket)
      | none => .ok (content.map Json.ofBytes) := by
  unfold SettingsFile.content?
  cases h with
  | absent h => rw [h]; rfl
  | present h hread => rw [h, hread]; rfl

/-- The settings that are loaded are those that the content of the file describes. -/
theorem SettingsFile.Holds.load_eq {file : SettingsFile} {disk : Disk} {content : Option Bytes}
    (h : file.Holds disk content) (hnesting : content.bind Json.overflowOfBytes? = none) :
    ∃ log, file.load disk =
      .ok ((content.bind Settings.describedByBytes?).map Settings.mk, log) := by
  rw [SettingsFile.load, h.content?_eq, hnesting]
  cases content with
  | none => exact ⟨[], rfl⟩
  | some bytes =>
    refine ⟨(file.interpret (some (Json.ofBytes bytes))).2, ?_⟩
    rw [Option.bind_some, ← file.interpret_fst bytes]
    rfl

namespace Environment

/-- A limit is set in the place of another exactly if it is in range. -/
theorem withOverrides_limit (settings : Settings) (n : Int) :
    (settings.withOverrides [(Settings.limitKey, .int n)]).toOption =
      if Settings.InRange n then some ⟨n⟩ else none := by
  rw [Settings.withOverrides_limit, Settings.toOption_ofJson, Settings.described?_limit]
  split <;> rfl

variable {environment : Environment} {text : Text}

/-- A limit of the environment that is in range is set in the place of any other. -/
theorem override_of_inRange {n : Int} (htext : environment.limit? = some text)
    (hread : Numeral.read? text = some n) (hrange : Settings.InRange n) (settings : Settings) :
    environment.override settings = (⟨n⟩, []) := by
  have hoption := withOverrides_limit settings n
  rw [if_pos hrange] at hoption
  unfold override overrides
  rw [htext]
  dsimp only
  rw [hread]
  dsimp only
  cases hover : settings.withOverrides [(Settings.limitKey, .int n)] with
  | error problems =>
    rw [hover] at hoption
    cases hoption
  | ok overridden =>
    rw [hover] at hoption
    cases hoption
    rfl

/-- A limit of the environment that is out of range is warned about. -/
theorem override_of_not_inRange {n : Int} (htext : environment.limit? = some text)
    (hread : Numeral.read? text = some n) (hrange : ¬Settings.InRange n) (settings : Settings) :
    ∃ problems, environment.override settings = (settings, [outOfRangeRecord problems]) := by
  have hoption := withOverrides_limit settings n
  rw [if_neg hrange] at hoption
  unfold override overrides
  rw [htext]
  dsimp only
  rw [hread]
  dsimp only
  cases hover : settings.withOverrides [(Settings.limitKey, .int n)] with
  | error problems => exact ⟨problems, rfl⟩
  | ok overridden =>
    rw [hover] at hoption
    cases hoption

/-- A text of the environment that is no integer is warned about. -/
theorem override_of_notInteger (htext : environment.limit? = some text)
    (hread : Numeral.read? text = none) (settings : Settings) :
    environment.override settings = (settings, [notIntegerRecord text]) := by
  unfold override overrides
  rw [htext]
  dsimp only
  rw [hread]

/-- The limit of the environment stands in the place of that of settings if it is in range. -/
theorem override_fst (environment : Environment) (settings : Settings) :
    (environment.override settings).1.maxQueryLength =
      environment.limitInRange?.getD settings.maxQueryLength := by
  unfold limitInRange?
  cases htext : environment.limit? with
  | none =>
    rw [override, overrides, htext]
    rfl
  | some text =>
    rw [Option.bind_some]
    cases hread : Numeral.read? text with
    | none =>
      rw [override_of_notInteger htext hread]
      rfl
    | some n =>
      rw [Option.filter_some]
      by_cases hrange : Settings.InRange n
      · rw [override_of_inRange htext hread hrange, if_pos (decide_eq_true hrange)]
        rfl
      · obtain ⟨problems, hover⟩ := override_of_not_inRange htext hread hrange settings
        rw [hover, if_neg (by rwa [decide_eq_true_eq])]
        rfl

end Environment

/-! ### The limit in force -/

/-- A limit in force is in range. -/
theorem inRange_limitInForce (content : Option Bytes) (environment : Environment) :
    Settings.InRange (limitInForce content environment) := by
  unfold limitInForce
  cases henvironment : environment.limitInRange? with
  | some n => exact of_decide_eq_true (Option.filter_eq_some_iff.1 henvironment).2
  | none =>
    cases hfile : content.bind Settings.describedByBytes? with
    | none => decide
    | some n =>
      obtain ⟨bytes, -, hbytes⟩ := Option.bind_eq_some_iff.1 hfile
      unfold Settings.describedByBytes? at hbytes
      split at hbytes
      · exact Settings.inRange_of_described? hbytes
      · cases hbytes

namespace Profile

/-- A profile is loaded from every content of the settings file that is read to its end, and the
settings in force have the limit that is documented in every environment. -/
theorem exists_load_eq {disk : Disk} {base? : Option Text} {content : Option Bytes}
    (hcontent : (SettingsFile.ofBase disk base?).Holds disk content)
    (hnesting : content.bind Json.overflowOfBytes? = none) :
    ∃ profile log, Profile.load disk base? = .ok (profile, log) ∧ ∀ environment,
      (profile.settings environment).1.maxQueryLength = limitInForce content environment := by
  obtain ⟨log, hload⟩ := hcontent.load_eq hnesting
  refine ⟨_, log, by rw [Profile.load, hload], fun environment => ?_⟩
  have hlimit : (((content.bind Settings.describedByBytes?).map Settings.mk).getD
      .default).maxQueryLength =
        (content.bind Settings.describedByBytes?).getD Query.defaultLimit := by
    cases content.bind Settings.describedByBytes? <;> rfl
  rw [Profile.settings, Environment.override_fst, Profile.current, hlimit]
  rfl

/-- No profile is loaded from a settings file whose reading breaks off. -/
theorem load_eq_error {disk : Disk} {base? : Option Text} {content : Option Bytes}
    {bracket : CodePoint} (hcontent : (SettingsFile.ofBase disk base?).Holds disk content)
    (hnesting : content.bind Json.overflowOfBytes? = some bracket) :
    Profile.load disk base? = .error (.tooNested bracket) := by
  unfold Profile.load SettingsFile.load
  dsimp only
  rw [hcontent.content?_eq, hnesting]
  rfl

/-- For every content of the settings file that is read without breaking off and every environment,
the settings in force have the limit that is documented: that of the environment if it is an integer
in range, else that of the file if it describes settings, else the default. It is in range. -/
theorem maxQueryLength_eq_limitInForce {disk : Disk} {base? : Option Text}
    {content : Option Bytes} (hcontent : (SettingsFile.ofBase disk base?).Holds disk content)
    (hnesting : content.bind Json.overflowOfBytes? = none) (environment : Environment) :
    ∃ profile log, Profile.load disk base? = .ok (profile, log) ∧
      (profile.settings environment).1.maxQueryLength = limitInForce content environment ∧
      Settings.InRange (profile.settings environment).1.maxQueryLength := by
  obtain ⟨profile, log, hload, hlimit⟩ := exists_load_eq hcontent hnesting
  refine ⟨profile, log, hload, hlimit environment, ?_⟩
  rw [hlimit environment]
  exact inRange_limitInForce content environment

/-- A settings file with the limit seven. -/
def sampleBytes : Bytes :=
  Utf8.encode "\x7b\"max_query_length\": 7\x7d"

/-- A disk with this settings file under its working folder. -/
def sampleDisk : Disk where
  entries := [([".tsquery_compiler"], .folder),
    (["compiler_config.json", ".tsquery_compiler"], .file sampleBytes)]
  workingFolder := []

/-- A limit of the environment that is out of range does not keep the one of the file from being in
force. -/
theorem maxQueryLength_eq_limitInForce_of_file :
    (SettingsFile.ofBase sampleDisk none).Holds sampleDisk (some sampleBytes) ∧
      Json.overflowOfBytes? sampleBytes = none ∧
      ∃ profile log, Profile.load sampleDisk none = .ok (profile, log) ∧
        (profile.settings ⟨some "100001", none⟩).1.maxQueryLength = 7 := by
  have hcontent : (SettingsFile.ofBase sampleDisk none).Holds sampleDisk (some sampleBytes) :=
    .present (by cbv) (by cbv)
  have hnesting : Json.overflowOfBytes? sampleBytes = none := by cbv
  have hbytes : Json.ofBytes sampleBytes = .ok (.object [(Settings.limitKey, .int 7)]) := by cbv
  have hread : Numeral.read? "100001" = some 100001 := by cbv
  have hlimit : limitInForce (some sampleBytes) ⟨some "100001", none⟩ = 7 := by
    rw [limitInForce, Environment.limitInRange?, Option.bind_some, Option.bind_some, hread,
      Settings.describedByBytes?, hbytes]
    decide
  obtain ⟨profile, log, hload, hforce, -⟩ :=
    maxQueryLength_eq_limitInForce hcontent hnesting ⟨some "100001", none⟩
  exact ⟨hcontent, hnesting, profile, log, hload, hforce.trans hlimit⟩

end Profile

end TsQuery
