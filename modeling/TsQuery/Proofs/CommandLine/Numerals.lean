import Mathlib
import TsQuery.Proofs.CommandLine.OnQuery
import TsQuery.Proofs.CommandLine.Reading
import TsQuery.Proofs.Settings.Cell
import TsQuery.Proofs.Settings.Fresh

/-!
# Limits that are given as texts

A limit is given as a text in three ways: in the environment, as a value to be stored, and with a
query.  Each takes it in a way of its own: the environment is checked when settings are asked for, a
value that is no integer is checked as the text that it is, and a limit of a query is checked twice,
first for being positive.  All three take the same texts for the same limits
(`CommandLine.limit_sources_agree`): numerals of integers in range, whatever blanks, signs,
underscores and digits they are written with.
-/

namespace TsQuery

namespace Settings

/-- Whether a text is a numeral of a limit in range. -/
def IsLimit (text : Text) (n : Int) : Prop :=
  Numeral.read? text = some n ∧ InRange n

variable {text : Text} {n : Int}

/-- A numeral of a limit in range does not begin with a dash. -/
theorem IsLimit.not_dash (h : IsLimit text n) : ¬text.BeginsWithDash := fun hdash =>
  absurd (Numeral.read?_nonpos hdash h.1) (Int.not_le.2 h.2.1)

/-- An integer is accepted for the limit if it is in range. -/
theorem withOverrides_of_inRange (settings : Settings) (h : InRange n) :
    settings.withOverrides [(limitKey, .int n)] = .ok ⟨n⟩ := by
  rw [withOverrides_limit]
  exact ofJson_toJson_of_inRange h

/-- An integer out of range is refused for the limit. -/
theorem withOverrides_of_not_inRange (settings : Settings) (h : ¬InRange n) :
    settings.withOverrides [(limitKey, .int n)] = .error [rangeProblem n] := by
  rw [withOverrides_limit]
  exact ofJson_toJson_of_not_inRange h

/-- A text that is a value for the limit as it stands is refused. -/
theorem withOverrides_of_string (settings : Settings) (text : Text) :
    settings.withOverrides [(limitKey, .string text)] = .error [.notInteger (.string text)] := by
  rw [withOverrides_limit, ofJson, problems_limit]
  rfl

/-- The value of a text is accepted for the limit exactly if the text is a numeral of a limit in
range. -/
theorem withOverrides_settingValue (settings : Settings) (text : Text) :
    (∀ n, IsLimit text n →
      settings.withOverrides [(limitKey, CommandLine.settingValue text)] = .ok ⟨n⟩) ∧
    ((¬∃ n, IsLimit text n) → ∃ problems,
      settings.withOverrides [(limitKey, CommandLine.settingValue text)] = .error problems) := by
  unfold CommandLine.settingValue
  constructor
  · rintro n ⟨hread, hrange⟩
    rw [hread]
    exact withOverrides_of_inRange settings hrange
  · intro hnone
    cases hread : Numeral.read? text with
    | none => exact ⟨_, withOverrides_of_string settings text⟩
    | some n =>
      have hrange : ¬InRange n := fun hrange => hnone ⟨n, hread, hrange⟩
      exact ⟨_, withOverrides_of_not_inRange settings hrange⟩

end Settings

/-! ### The environment -/

namespace Environment

variable {environment : Environment} {text : Text}

/-- A text of the environment that is no numeral of a limit in range leaves settings as they are,
with one warning. -/
theorem exists_override_eq (htext : environment.limit? = some text)
    (hnone : ¬∃ n, Settings.IsLimit text n) (settings : Settings) :
    ∃ record, environment.override settings = (settings, [record]) := by
  cases hread : Numeral.read? text with
  | none => exact ⟨_, override_of_notInteger htext hread settings⟩
  | some n =>
    have hrange : ¬Settings.InRange n := fun hrange => hnone ⟨n, hread, hrange⟩
    obtain ⟨problems, hover⟩ := override_of_not_inRange htext hread hrange settings
    exact ⟨_, hover⟩

/-- The environment sets a limit in the place of any other, without a warning, exactly if its text
is a numeral of that limit in range. -/
theorem override_eq_iff (htext : environment.limit? = some text) (settings : Settings) (n : Int) :
    environment.override settings = (⟨n⟩, []) ↔ Settings.IsLimit text n := by
  constructor
  · intro hover
    by_cases hlimit : ∃ m, Settings.IsLimit text m
    · obtain ⟨m, hm⟩ := hlimit
      cases (override_of_inRange htext hm.1 hm.2 settings).symm.trans hover
      exact hm
    · obtain ⟨record, hrecord⟩ := exists_override_eq htext hlimit settings
      cases hrecord.symm.trans hover
  · rintro ⟨hread, hrange⟩
    exact override_of_inRange htext hread hrange settings

end Environment

namespace CommandLine

variable {arguments : List Text} {environment : Environment} {disk : Disk} {text query : Text}
  {given : List Text} {n : Int}

/-! ### Setting the limit -/

/-- A command line with a problem fails and changes nothing. -/
theorem IsProblem.run_eq (h : IsProblem arguments) (environment : Environment) (disk : Disk) :
    (run arguments environment disk).ending = .exit 2 ∧
      (run arguments environment disk).output = [] ∧
      (run arguments environment disk).disk = disk := by
  obtain ⟨page, cause, hproblem⟩ := h
  unfold run
  rw [hproblem]
  exact ⟨rfl, rfl, rfl⟩

/-- What setting the limit does in an empty working folder, if the value is read as it stands. -/
theorem run_config_eq (hdisk : disk.IsFresh) (text : Text) (environment : Environment) :
    (Command.config (.set Settings.limitKey text)).run none environment disk =
      runConfig ⟨SettingsFile.ofBase disk none, none⟩ environment disk
        (.set Settings.limitKey text) := by
  rw [Command.run, hdisk.load_eq]
  rfl

/-- Setting the limit in an empty working folder stores a numeral of a limit in range. -/
theorem run_setLine_of_isLimit (hdisk : disk.IsFresh) (h : Settings.IsLimit text n)
    (environment : Environment) :
    (run (setLine text) environment disk).ending = .exit 0 ∧
      (SettingsFile.ofBase (run (setLine text) environment disk).disk none).load
        (run (setLine text) environment disk).disk = .ok (some ⟨n⟩, []) := by
  obtain ⟨after, hsave⟩ := hdisk.exists_save_eq_ok ⟨n⟩
  have hupdate : Profile.update ⟨SettingsFile.ofBase disk none, none⟩
      [(Settings.limitKey, settingValue text)] disk =
        (after, .ok ⟨SettingsFile.ofBase disk none, some ⟨n⟩⟩) := by
    rw [Profile.update, (Settings.withOverrides_settingValue _ text).1 n h]
    dsimp only
    rw [hsave]
  have hvalue : settingValue text = .int n := by rw [settingValue, h.1]
  have hrun := run_config_eq hdisk text environment
  rw [runConfig, hupdate, hvalue] at hrun
  obtain ⟨hafter, hsuccess, -⟩ := run_eq (ofArguments_setLine_of_not_dash h.not_dash) hrun
  obtain ⟨location, hstores⟩ := SettingsFile.exists_storesAt_of_save hsave
  rw [hafter, SettingsFile.ofBase_congr none hstores.workingFolder_eq]
  exact ⟨(hsuccess _ (printed_of_isEncodable (isEncodable_settingLine n))).1,
    SettingsFile.load_of_save h.2 hsave⟩

/-- Setting the limit in an empty working folder fails with a text that is no numeral of a limit in
range, and changes nothing. -/
theorem run_setLine_of_not_isLimit (hdisk : disk.IsFresh) (h : ¬∃ n, Settings.IsLimit text n)
    (environment : Environment) :
    (run (setLine text) environment disk).ending ≠ .exit 0 ∧
      (run (setLine text) environment disk).disk = disk := by
  rcases ofArguments_setLine text with hproblem | harguments
  · obtain ⟨hending, -, hafter⟩ := hproblem.run_eq environment disk
    exact ⟨Outcome.ending_ne_exit hending (by decide), hafter⟩
  · obtain ⟨problems, hover⟩ := (Settings.withOverrides_settingValue .default text).2 h
    have hupdate : Profile.update ⟨SettingsFile.ofBase disk none, none⟩
        [(Settings.limitKey, settingValue text)] disk = (disk, .error (.invalid problems)) := by
      rw [Profile.update, Profile.current, Option.getD_none, hover]
    have hrun := run_config_eq hdisk text environment
    rw [runConfig, hupdate] at hrun
    obtain ⟨hafter, -, hfailure⟩ := run_eq harguments hrun
    refine ⟨fun hzero => ?_, hafter⟩
    exact (Failure.invalid problems).ending_ne ((hfailure _ rfl).1.symm.trans hzero)

/-! ### Limits of a query -/

/-- Whether a command line builds a compiler with a limit for a query: the limit is the one that is
asked for, if there is one, checked against the settings in force. -/
def BuildsCompiler (arguments : List Text) (environment : Environment) (disk : Disk) (query : Text)
    (limit : Int) : Prop :=
  ∃ base? verbose limit? json profile log,
    Invocation.ofArguments arguments = .ok ⟨base?, verbose, .compile query limit? json⟩ ∧
    Profile.load disk base? = .ok (profile, log) ∧
    limitFor (profile.settings environment).1 limit? = .ok limit

/-- A limit that is asked for is the one that is in force if it is in range. -/
theorem limitFor_some_eq_ok_iff {settings : Settings} {asked : Int} :
    limitFor settings (some asked) = .ok n ↔ Settings.InRange asked ∧ n = asked := by
  unfold limitFor
  dsimp only
  by_cases hrange : Settings.InRange asked
  · rw [Settings.withOverrides_of_inRange settings hrange]
    exact ⟨fun h => ⟨hrange, by cases h; rfl⟩, fun h => by rw [h.2]⟩
  · rw [Settings.withOverrides_of_not_inRange settings hrange]
    exact iff_of_false nofun fun h => hrange h.1

/-- A numeral of a limit in range is read as a limit of a query. -/
theorem readLimit_eq_ok_of_isLimit (h : Settings.IsLimit text n) : readLimit text = .ok n := by
  have hpos : ¬n ≤ 0 := Int.not_le.2 h.2.1
  rw [readLimit, h.1]
  exact if_neg hpos

/-- A positive integer is read from its numeral. -/
theorem read?_of_readLimit (h : readLimit text = .ok n) : Numeral.read? text = some n := by
  unfold readLimit at h
  split at h
  · cases h
  · next hread =>
    split_ifs at h
    cases h
    exact hread

/-- A command line with a limit in an empty working folder builds a compiler with that limit exactly
if it is given as a numeral of a limit in range. -/
theorem buildsCompiler_limitLine_iff (hdisk : disk.IsFresh) (hgiven : GivesQuery query given)
    (environment : Environment) (text : Text) (n : Int) :
    BuildsCompiler (limitLine text given) environment disk query n ↔ Settings.IsLimit text n := by
  constructor
  · rintro ⟨base?, verbose, limit?, json, profile, log, harguments, -, hlimit⟩
    cases hread : readLimit text with
    | error fault =>
      obtain ⟨page, cause, hproblem⟩ := isProblem_limitLine hread given
      cases harguments.symm.trans hproblem
    | ok asked =>
      cases harguments.symm.trans (ofArguments_limitLine hread hgiven)
      obtain ⟨hrange, rfl⟩ := limitFor_some_eq_ok_iff.1 hlimit
      exact ⟨read?_of_readLimit hread, hrange⟩
  · intro h
    exact ⟨_, _, _, _, _, _, ofArguments_limitLine (readLimit_eq_ok_of_isLimit h) hgiven,
      hdisk.load_eq, limitFor_some_eq_ok_iff.2 ⟨h.2, rfl⟩⟩

/-- Whether a run ends as compiling a query does: with the compiled text if that can be printed and
with no output if not, or with the reason for which the query is refused. -/
def Outcome.Tells (outcome : Outcome) : Except Refusal Compiled → Prop
  | .ok compiled =>
    (compiled.text.IsEncodable →
      outcome.ending = .exit 0 ∧ outcome.output = line compiled.text ∧ outcome.errors = []) ∧
    (¬compiled.text.IsEncodable → outcome.ending = .exit 3 ∧ outcome.output = [])
  | .error refusal =>
    outcome.ending = .exit 2 ∧ outcome.output = [] ∧ outcome.errors = errorLine refusal.message

/-- A command line with a numeral of a limit in range compiles the query with that limit. -/
theorem run_limitLine_of_isLimit (hdisk : disk.IsFresh) (hgiven : GivesQuery query given)
    (h : Settings.IsLimit text n) (environment : Environment) :
    (run (limitLine text given) environment disk).Tells (Query.compile n (.string query)) := by
  have harguments := ofArguments_limitLine (readLimit_eq_ok_of_isLimit h) hgiven
  have hlimit : limitFor (Profile.settings ⟨SettingsFile.ofBase disk none, none⟩ environment).1
      (some n) = .ok n := limitFor_some_eq_ok_iff.2 ⟨h.2, rfl⟩
  have hrun : (Command.compile query (some n) false).run none environment disk =
      runQuery none (some n) environment disk (runCompile query false) := rfl
  rw [runQuery, hdisk.load_eq] at hrun
  dsimp only at hrun
  rw [hlimit] at hrun
  dsimp only [runCompile] at hrun
  cases hcompile : Query.compile n (.string query) with
  | ok compiled =>
    rw [hcompile] at hrun
    obtain ⟨-, hsuccess, hfailure⟩ := run_eq harguments hrun
    refine ⟨fun hprints => ?_, fun hhalf => ?_⟩
    · exact hsuccess _ (printed_of_isEncodable (isEncodable_line.2 hprints))
    · obtain ⟨fault, hfault⟩ := exists_encodingFault?_eq_some (mt isEncodable_line.1 hhalf)
      obtain ⟨hending, houtput, -⟩ := hfailure _ (printed_eq_error hfault)
      exact ⟨hending, houtput⟩
  | error refusal =>
    rw [hcompile] at hrun
    exact (run_eq harguments hrun).2.2 _ rfl

/-- A command line with any other text for the limit compiles nothing. -/
theorem run_limitLine_of_not_isLimit (hdisk : disk.IsFresh) (hgiven : GivesQuery query given)
    (h : ¬∃ n, Settings.IsLimit text n) (environment : Environment) :
    (run (limitLine text given) environment disk).ending ≠ .exit 0 ∧
      (run (limitLine text given) environment disk).output = [] := by
  cases hread : readLimit text with
  | error fault =>
    obtain ⟨hending, houtput, -⟩ := (isProblem_limitLine hread given).run_eq environment disk
    exact ⟨Outcome.ending_ne_exit hending (by decide), houtput⟩
  | ok asked =>
    have hrange : ¬Settings.InRange asked := fun hrange =>
      h ⟨asked, read?_of_readLimit hread, hrange⟩
    have hrun : (Command.compile query (some asked) false).run none environment disk =
        runQuery none (some asked) environment disk (runCompile query false) := rfl
    rw [runQuery, hdisk.load_eq] at hrun
    dsimp only [limitFor] at hrun
    rw [Settings.withOverrides_of_not_inRange _ hrange] at hrun
    obtain ⟨hending, houtput, -⟩ := (run_eq (ofArguments_limitLine hread hgiven) hrun).2.2 _ rfl
    exact ⟨fun hzero => (Failure.ending_ne _) (hending.symm.trans hzero), houtput⟩

/-! ### Agreement -/

/-- A limit can be given as a text in three ways, which take the same texts for the same limits:
numerals of integers in range.  In an empty working folder, the settings in force have the limit of
a text in the environment, without a warning, exactly if the text is a numeral of it; setting the
limit to a text succeeds exactly if the text is a numeral of a limit, which is then loaded; and for
every query, a compiler is built with a limit that is given as a text exactly if the text is a
numeral of it, and compiles the query.  With any other text the settings in force are the default,
with one warning, nothing is stored, and nothing is compiled.  The environment makes no difference
to the last two. -/
theorem limit_sources_agree (hdisk : disk.IsFresh) (text : Text) :
    (∃ profile, Profile.load disk none = .ok (profile, []) ∧
      ∀ environment, environment.limit? = some text →
        (∀ n, profile.settings environment = (⟨n⟩, []) ↔ Settings.IsLimit text n) ∧
        ((¬∃ n, Settings.IsLimit text n) →
          ∃ record, profile.settings environment = (.default, [record]))) ∧
    (∀ environment,
      ((run (setLine text) environment disk).ending = .exit 0 ↔ ∃ n, Settings.IsLimit text n) ∧
      (∀ n, Settings.IsLimit text n →
        (SettingsFile.ofBase (run (setLine text) environment disk).disk none).load
          (run (setLine text) environment disk).disk = .ok (some ⟨n⟩, [])) ∧
      ((¬∃ n, Settings.IsLimit text n) → (run (setLine text) environment disk).disk = disk)) ∧
    ∀ environment query given, GivesQuery query given →
      (∀ n, BuildsCompiler (limitLine text given) environment disk query n ↔
        Settings.IsLimit text n) ∧
      (∀ n, Settings.IsLimit text n →
        (run (limitLine text given) environment disk).Tells (Query.compile n (.string query))) ∧
      ((¬∃ n, Settings.IsLimit text n) →
        (run (limitLine text given) environment disk).ending ≠ .exit 0 ∧
        (run (limitLine text given) environment disk).output = []) := by
  refine ⟨⟨_, hdisk.load_eq, ?environment⟩, ?set, ?query⟩
  case environment =>
    intro environment htext
    exact ⟨environment.override_eq_iff htext .default,
      fun hnone => environment.exists_override_eq htext hnone .default⟩
  case set =>
    intro environment
    refine ⟨⟨fun hzero => ?_, ?_⟩, fun n h => (run_setLine_of_isLimit hdisk h environment).2,
      fun h => (run_setLine_of_not_isLimit hdisk h environment).2⟩
    · by_contra hnone
      exact (run_setLine_of_not_isLimit hdisk hnone environment).1 hzero
    · rintro ⟨n, h⟩
      exact (run_setLine_of_isLimit hdisk h environment).1
  case query =>
    intro environment query given hgiven
    exact ⟨buildsCompiler_limitLine_iff hdisk hgiven environment text,
      fun n h => run_limitLine_of_isLimit hdisk hgiven h environment,
      fun h => run_limitLine_of_not_isLimit hdisk hgiven h environment⟩

/-- A numeral with blanks, a sign and an underscore is taken in all three ways. -/
theorem limit_sources_agree_of_padded :
    Disk.IsFresh ⟨[], []⟩ ∧ Settings.IsLimit " +1_000\n" 1000 ∧
      GivesQuery "cats" ["cats"] ∧
      (∃ profile, Profile.load ⟨[], []⟩ none = .ok (profile, []) ∧
        profile.settings ⟨some " +1_000\n", none⟩ = (⟨1000⟩, [])) ∧
      (run (setLine " +1_000\n") ⟨none, none⟩ ⟨[], []⟩).ending = .exit 0 ∧
      BuildsCompiler (limitLine " +1_000\n" ["cats"]) ⟨none, none⟩ ⟨[], []⟩ "cats" 1000 := by
  have hlimit : Settings.IsLimit " +1_000\n" 1000 := ⟨by cbv, by decide⟩
  have hgiven : GivesQuery "cats" ["cats"] := .plain (by decide)
  obtain ⟨⟨profile, hload, henvironment⟩, hset, hquery⟩ :=
    limit_sources_agree Disk.isFresh_empty " +1_000\n"
  refine ⟨Disk.isFresh_empty, hlimit, hgiven, ⟨profile, hload, ?_⟩, ?_, ?_⟩
  · exact ((henvironment ⟨some " +1_000\n", none⟩ rfl).1 1000).2 hlimit
  · exact (hset ⟨none, none⟩).1.2 ⟨1000, hlimit⟩
  · exact ((hquery ⟨none, none⟩ "cats" ["cats"] hgiven).1 1000).2 hlimit

end CommandLine

end TsQuery
