import Mathlib
import TsQuery.Proofs.CommandLine.Arguments
import TsQuery.Proofs.CommandLine.Printed
import TsQuery.Proofs.Settings.Update

/-!
# Settings that are stored, from a service and from the command line

A command line that changes the settings makes the change on a service that it opens
(`CommandLine.Asks.run_eq`).  So the stored settings behave as one cell over whole runs, of one
service and of command lines: after every run a fresh load gives what the last changes that
succeeded say, and the environment never influences it (`Profile.load_eq_storedLimit`).
-/

namespace TsQuery

/-- Settings that one member is set in have no field but the limit, which is an integer. -/
theorem Settings.eq_limit_of_withOverrides {settings next : Settings} {key : Text} {value : Json}
    (h : settings.withOverrides [(key, value)] = .ok next) :
    key = limitKey ∧ ∃ n, value = .int n := by
  have hget : Json.Members.get? (settings.toMembers.setAll [(key, value)]) key = some value :=
    Json.Members.get?_set_self settings.toMembers key value
  unfold withOverrides ofJson at h
  split at h
  · next hnone =>
    obtain ⟨_, ⟨⟩, hkeys, hlimit⟩ := problems_eq_nil_iff.1 (List.isEmpty_iff.1 hnone)
    obtain ⟨before, after, hmembers, -⟩ := List.lookup_eq_some_iff.1 hget
    have hkey : key = limitKey :=
      hkeys (key, value) (hmembers ▸ List.mem_append_right _ List.mem_cons_self)
    subst hkey
    obtain ⟨n, hn, -⟩ := hlimit value hget
    exact ⟨rfl, n, hn⟩
  · cases h

namespace CommandLine

/-! ### Commands that change the settings -/

/-- The change that an action on the settings makes, if it makes one. -/
def ConfigAction.change? : ConfigAction → Option Change
  | .set key text => some (.update [(key, settingValue text)])
  | .reset => some .reset
  | .show => none
  | .validate => none

/-- Whether arguments ask for a change of the settings under a base path. -/
def Asks (base? : Option Text) (arguments : List Text) (change : Change) : Prop :=
  ∃ verbose action, Invocation.ofArguments arguments = .ok ⟨base?, verbose, .config action⟩ ∧
    action.change? = some change

/-- Whether running arguments in an environment succeeds. -/
def Succeeds (arguments : List Text) (environment : Environment) (disk : Disk) : Bool :=
  decide ((run arguments environment disk).ending = .exit 0)

/-- Runs of command lines that change the settings under a base path, one after another and each in
an environment of its own: the disk before them, the changes with whether they succeeded, the newest
first, and the disk after them. -/
inductive Runs (base? : Option Text) : Disk → List (Change × Bool) → Disk → Prop
  | none (disk : Disk) : Runs base? disk [] disk
  | run {disk middle : Disk} {history : List (Change × Bool)} {arguments : List Text}
    {change : Change} (h : Runs base? disk history middle) (hasks : Asks base? arguments change)
    (environment : Environment) :
    Runs base? disk ((change, Succeeds arguments environment middle) :: history)
      (CommandLine.run arguments environment middle).disk

variable {disk after : Disk} {base? : Option Text} {profile next : Profile} {log : Log}
  {arguments : List Text} {change : Change} {succeeded : Bool}

/-- An update with a member succeeds only if there is nothing that cannot be printed in
the member. -/
theorem isEncodable_of_update {key : Text} {value : Json}
    (h : profile.update [(key, value)] disk = (after, .ok next)) :
    (settingLine key value).IsEncodable := by
  unfold Profile.update at h
  split at h
  · cases h
  · next hover =>
    obtain ⟨rfl, n, rfl⟩ := Settings.eq_limit_of_withOverrides hover
    exact isEncodable_settingLine n

/-- An action on the settings that makes a change makes it on the profile, and succeeds if the
change does; then what it tells can be printed. -/
theorem runConfig_of_change {action : ConfigAction} (hchange : action.change? = some change)
    (happly : profile.apply disk change = (after, next, succeeded)) (environment : Environment) :
    ∃ log result, runConfig profile environment disk action = ⟨after, log, result⟩ ∧
      result.isOk = succeeded ∧ ∀ output, result = .ok output → output.IsEncodable := by
  unfold Profile.apply at happly
  unfold runConfig
  cases action with
  | set key text =>
    cases hchange
    dsimp only at happly ⊢
    rcases hupdate : profile.update [(key, settingValue text)] disk with ⟨changed, error | updated⟩
    · rw [hupdate] at happly
      cases happly
      cases error <;> exact ⟨_, _, rfl, rfl, nofun⟩
    · rw [hupdate] at happly
      cases happly
      refine ⟨_, _, rfl, rfl, ?_⟩
      rintro _ ⟨⟩
      exact isEncodable_of_update hupdate
  | reset =>
    cases hchange
    dsimp only at happly ⊢
    rcases hreset : profile.reset disk with ⟨changed, error | emptied⟩
    · rw [hreset] at happly
      cases happly
      exact ⟨_, _, rfl, rfl, nofun⟩
    · rw [hreset] at happly
      cases happly
      refine ⟨_, _, rfl, rfl, ?_⟩
      rintro _ ⟨⟩
      decide
  | _ => cases hchange

/-- A command line that asks for a change makes it on the profile that it loads, and succeeds if the
change does. -/
theorem Asks.run_eq (h : Asks base? arguments change)
    (hload : Profile.load disk base? = .ok (profile, log))
    (happly : profile.apply disk change = (after, next, succeeded)) (environment : Environment) :
    (run arguments environment disk).disk = after ∧
      Succeeds arguments environment disk = succeeded := by
  obtain ⟨verbose, action, harguments, hchange⟩ := h
  obtain ⟨found, result, hconfig, hok, hprints⟩ :=
    runConfig_of_change hchange happly environment
  have hrun :
      (Command.config action).run base? environment disk = ⟨after, log ++ found, result⟩ := by
    rw [Command.run, hload]
    dsimp only
    rw [hconfig]
  obtain ⟨hdisk, hsuccess, hfailure⟩ := CommandLine.run_eq harguments hrun
  refine ⟨hdisk, ?_⟩
  unfold Succeeds
  cases result with
  | ok output =>
    rw [← hok]
    exact decide_eq_true (hsuccess output (printed_of_isEncodable (hprints output rfl))).1
  | error failure =>
    rw [← hok, (hfailure failure rfl).1]
    exact decide_eq_false failure.ending_ne

/-! ### Runs -/

/-- After command lines that change the settings, a service that is opened and a fresh load agree on
what the cell holds. -/
theorem Runs.exists_agrees {history : List (Change × Bool)} (h : Runs base? disk history after)
    {initial : Option Int} (hagrees : profile.Agrees disk base? initial) :
    ∃ opened : Profile, opened.Agrees after base? (storedLimit? initial history) := by
  induction h with
  | none => exact ⟨profile, hagrees⟩
  | run h hasks environment ih =>
    obtain ⟨opened, hopened⟩ := ih
    obtain ⟨log, hload⟩ := hopened.exists_load_eq
    obtain ⟨changed, next, succeeded, happly, hnext⟩ := hopened.exists_apply _
    obtain ⟨hdisk, hsucceeds⟩ := hasks.run_eq hload happly environment
    rw [hdisk, hsucceeds]
    exact ⟨next, hnext⟩

/-- The environments influence neither the disk nor which command lines succeed: they are the same
after all command lines that ask for the same changes. -/
theorem Runs.eq_of_changes {history otherHistory : List (Change × Bool)} {other : Disk}
    (h : Runs base? disk history after) (hother : Runs base? disk otherHistory other)
    {initial : Option Int} (hagrees : profile.Agrees disk base? initial)
    (hchanges : history.map Prod.fst = otherHistory.map Prod.fst) :
    after = other ∧ history = otherHistory := by
  induction h generalizing otherHistory other with
  | none =>
    cases hother with
    | none => exact ⟨rfl, rfl⟩
    | run => cases hchanges
  | run h hasks environment ih =>
    cases hother with
    | none => cases hchanges
    | run hother hotherAsks otherEnvironment =>
      obtain ⟨hchange, hearlier⟩ := List.cons.inj hchanges
      obtain ⟨hmiddle, hhistory⟩ := ih hother hearlier
      subst hmiddle
      subst hhistory
      dsimp only at hchange
      subst hchange
      obtain ⟨opened, hopened⟩ := h.exists_agrees hagrees
      obtain ⟨log, hload⟩ := hopened.exists_load_eq
      obtain ⟨changed, next, succeeded, happly, -⟩ := hopened.exists_apply _
      obtain ⟨hdisk, hsucceeds⟩ := hasks.run_eq hload happly environment
      obtain ⟨hotherDisk, hotherSucceeds⟩ := hotherAsks.run_eq hload happly otherEnvironment
      rw [hdisk, hsucceeds, hotherDisk, hotherSucceeds]
      exact ⟨rfl, rfl⟩

end CommandLine

namespace Profile

/-- The stored settings behave as one cell over whole runs.  Let a service open under a base path
that is plain from its first missing folder on, as that of every folder that is there is.  Whatever
changes are made on the service, with or without success, and whatever happens to the environment
meanwhile, the limit that the service holds and a fresh load gives afterwards is the one of the last
update that succeeded since the last reset that did, none after such a reset, and the one that was
loaded first if there was neither; the environment influences neither that nor the disk.  The same
holds for all command lines that change the settings, one after another and each in an environment
of its own. -/
theorem load_eq_storedLimit {disk : Disk} {base? : Option Text} {profile : Profile} {log : Log}
    (hload : Profile.load disk base? = .ok (profile, log))
    (hplain : disk.IsPlainPath (SettingsFile.ofBase disk base?).base) :
    (∀ environment events,
      let session := (Session.start profile environment disk).run events
      session.history.map Prod.fst = (Session.changes events).reverse ∧
      session.profile.stored = (storedLimit? (profile.stored.map Settings.maxQueryLength)
        session.history).map Settings.mk ∧
      ∃ log, (SettingsFile.ofBase session.disk base?).load session.disk =
        .ok (session.profile.stored, log)) ∧
    (∀ environment other events others, Session.changes events = Session.changes others →
      ((Session.start profile environment disk).run events).Matches
        ((Session.start profile other disk).run others)) ∧
    (∀ history after, CommandLine.Runs base? disk history after →
      ∃ log, (SettingsFile.ofBase after base?).load after =
        .ok ((storedLimit? (profile.stored.map Settings.maxQueryLength) history).map Settings.mk,
          log)) ∧
    (∀ history after others other, CommandLine.Runs base? disk history after →
      CommandLine.Runs base? disk others other → history.map Prod.fst = others.map Prod.fst →
      after = other ∧ history = others) := by
  have hagrees := agrees_of_load hload hplain
  refine ⟨?service, ?serviceEnvironment, ?commandLines, ?commandLineEnvironments⟩
  case service =>
    intro environment events session
    have hsession : (Session.start profile environment disk).Agrees base?
        (profile.stored.map Settings.maxQueryLength) := hagrees
    have hrun := hsession.run events
    obtain ⟨log, hfresh⟩ := hrun.load_eq
    rw [hrun.file_eq, ← hrun.stored_eq] at hfresh
    have hhistory := (Session.start profile environment disk).history_run events
    exact ⟨hhistory.trans (List.append_nil _), hrun.stored_eq, log, hfresh⟩
  case serviceEnvironment =>
    intro environment other events others hchanges
    exact Session.matches_run profile disk environment other hchanges
  case commandLines =>
    intro history after hruns
    obtain ⟨opened, hopened⟩ := hruns.exists_agrees hagrees
    have hfresh := hopened.load_eq
    rwa [hopened.file_eq] at hfresh
  case commandLineEnvironments =>
    intro history after others other hruns hothers hchanges
    exact hruns.eq_of_changes hothers hagrees hchanges

open CommandLine in
/-- A command line that sets the limit under a base path. -/
theorem asks_sample :
    Asks (some "a/b") ["--config-dir", "a/b", "config", "--set", "max_query_length", "7"]
      (.update [(Settings.limitKey, .int 7)]) := by
  have hset : readCommand "config" ["--set", "max_query_length", "7"] =
      .ok (.config (.set "max_query_length" "7"), []) := by
    rw [readCommand, if_neg (by decide), if_neg (by decide), if_pos rfl]
    cbv
  have hpieces : MainOption.table.pieces
      ["--config-dir", "a/b", "config", "--set", "max_query_length", "7"] =
        .ok [⟨"--config-dir", .option .configDir "--config-dir" none⟩, ⟨"a/b", .operand⟩,
          ⟨"config", .operand⟩, ⟨"--set", .unknown⟩, ⟨"max_query_length", .operand⟩,
          ⟨"7", .operand⟩] := by
    cbv
  have hevents : MainOption.table.events .command none
      [⟨"--config-dir", .option .configDir "--config-dir" none⟩, ⟨"a/b", .operand⟩,
        ⟨"config", .operand⟩, ⟨"--set", .unknown⟩, ⟨"max_query_length", .operand⟩,
        ⟨"7", .operand⟩] =
      [.option .configDir ["a/b"], .operand "config" ["--set", "max_query_length", "7"]] := by
    cbv
  have hvalue : settingValue "7" = .int 7 := by cbv
  have hconfig : MainArguments.read ⟨some "a/b", false, none, []⟩
      (.operand "config" ["--set", "max_query_length", "7"]) =
        .ok ⟨some "a/b", false, some (.config (.set "max_query_length" "7")), []⟩ := by
    rw [MainArguments.read, hset]
    rfl
  have hfold : [Event.option MainOption.configDir ["a/b"],
      .operand "config" ["--set", "max_query_length", "7"]].foldlM MainArguments.read
        ⟨none, false, none, []⟩ =
      .ok ⟨some "a/b", false, some (.config (.set "max_query_length" "7")), []⟩ := by
    have hfirst : MainArguments.read ⟨none, false, none, []⟩ (.option .configDir ["a/b"]) =
        .ok ⟨some "a/b", false, none, []⟩ := rfl
    have hsecond : [Event.operand "config" ["--set", "max_query_length", "7"]].foldlM
        MainArguments.read ⟨some "a/b", false, none, []⟩ =
          .ok ⟨some "a/b", false, some (.config (.set "max_query_length" "7")), []⟩ := by
      rw [List.foldlM_cons, hconfig]
      rfl
    rw [List.foldlM_cons, hfirst]
    exact hsecond
  refine ⟨false, .set "max_query_length" "7", ?_, ?_⟩
  · rw [Invocation.ofArguments, readArguments, hpieces]
    dsimp only
    rw [hevents, hfold]
    rfl
  · rw [ConfigAction.change?, hvalue]
    rfl

/-- Events of a session: the limit is set, the environment gives another one, and nothing is
updated. -/
def sampleEvents : List Session.Event :=
  [.change (.update [(Settings.limitKey, .int 7)]), .environment ⟨some "9", none⟩,
    .change (.update [])]

/-- Under a base path that is missing, a service and a command line store the limit that is set. -/
theorem load_eq_storedLimit_of_missing :
    Profile.load ⟨[], []⟩ (some "a/b") = .ok (⟨⟨⟨.workingFolder, ["a", "b"]⟩⟩, none⟩, []) ∧
      Disk.IsPlainPath ⟨[], []⟩ (SettingsFile.ofBase ⟨[], []⟩ (some "a/b")).base ∧
      (let session := (Session.start ⟨⟨⟨.workingFolder, ["a", "b"]⟩⟩, none⟩ ⟨none, none⟩
          ⟨[], []⟩).run sampleEvents
       session.profile.stored = some ⟨7⟩ ∧
        ∃ log, (SettingsFile.ofBase session.disk (some "a/b")).load session.disk =
          .ok (some ⟨7⟩, log)) ∧
      (let after := (CommandLine.run
          ["--config-dir", "a/b", "config", "--set", "max_query_length", "7"] ⟨some "9", none⟩
          ⟨[], []⟩).disk
       ∃ log, (SettingsFile.ofBase after (some "a/b")).load after = .ok (some ⟨7⟩, log)) := by
  have hload : Profile.load ⟨[], []⟩ (some "a/b") =
      .ok (⟨⟨⟨.workingFolder, ["a", "b"]⟩⟩, none⟩, []) := by cbv
  have hplain : Disk.IsPlainPath ⟨[], []⟩ (SettingsFile.ofBase ⟨[], []⟩ (some "a/b")).base := by
    have hbase :
        (SettingsFile.ofBase ⟨[], []⟩ (some "a/b")).base = ⟨.workingFolder, ["a", "b"]⟩ := by
      cbv
    have hmissing : ∀ name ∈ [Text.ofString "b"], Disk.IsPlainName name := by decide
    rw [hbase]
    exact hmissing
  obtain ⟨hservice, -, hlines, -⟩ := load_eq_storedLimit hload hplain
  refine ⟨hload, hplain, ?_, ?_⟩
  · obtain ⟨-, hstored, hfresh⟩ := hservice ⟨none, none⟩ sampleEvents
    have hseven : ((Session.start ⟨⟨⟨.workingFolder, ["a", "b"]⟩⟩, none⟩ ⟨none, none⟩
        ⟨[], []⟩).run sampleEvents).profile.stored = some ⟨7⟩ := by
      rw [hstored]
      cbv
    rw [hseven] at hfresh
    exact ⟨hseven, hfresh⟩
  · have happly : (Profile.apply ⟨⟨⟨.workingFolder, ["a", "b"]⟩⟩, none⟩ ⟨[], []⟩
        (.update [(Settings.limitKey, .int 7)])).2.2 = true := by cbv
    have hruns := CommandLine.Runs.run (.none ⟨[], []⟩) asks_sample ⟨some "9", none⟩
    have hfresh := hlines _ _ hruns
    rw [(asks_sample.run_eq hload rfl _).2.trans happly] at hfresh
    exact hfresh

/-- A session on a disk where nothing can be stored, under the base path `x/..`, after an update
that fails. -/
def blockedSession : Session :=
  (Session.start ⟨⟨⟨.workingFolder, ["x", ".."]⟩⟩, none⟩ ⟨none, none⟩ blockedDisk).run
    [.change (.update [(Settings.limitKey, .int 7)])]

/-- Not every base path under which a service opens will do.  Under `x/..` nothing is found where
`x` is missing; an update that fails because the temporary file cannot be written leaves the folder
`x`, and a fresh load then finds the settings beside it, which the service does not hold. -/
theorem not_forall_load_eq :
    ¬∀ (disk : Disk) (base? : Option Text) (profile : Profile) (log : Log),
      Profile.load disk base? = .ok (profile, log) → ∀ environment events,
        let session := (Session.start profile environment disk).run events
        ∃ log, (SettingsFile.ofBase session.disk base?).load session.disk =
          .ok (session.profile.stored, log) := by
  intro h
  have hload : Profile.load blockedDisk (some "x/..") =
      .ok (⟨⟨⟨.workingFolder, ["x", ".."]⟩⟩, none⟩, []) := by cbv
  have hstored : blockedSession.profile.stored = none := by cbv
  have hfile : (SettingsFile.ofBase blockedSession.disk (some "x/..")).load blockedSession.disk =
      .ok (some ⟨5⟩, []) := by cbv
  have hfresh : ∃ log, (SettingsFile.ofBase blockedSession.disk (some "x/..")).load
      blockedSession.disk = .ok (blockedSession.profile.stored, log) := h _ _ _ _ hload _ _
  obtain ⟨log, hfresh⟩ := hfresh
  rw [hfile, hstored] at hfresh
  cases hfresh

end Profile

end TsQuery
