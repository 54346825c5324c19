import Mathlib
import TsQuery.Proofs.Settings.Encoding
import TsQuery.Proofs.Settings.Storage
import TsQuery.Settings.Profile

/-!
# Stored settings as a cell

The stored settings behave as one cell that is empty or holds a limit.  A change that succeeds sets
the cell or empties it, one that fails leaves it as it was (`storedLimit?`), and the profile, the
settings file and the cell keep agreeing (`Profile.Agrees.exists_apply`), whatever happens to the
environment meanwhile (`Session.Agrees.run`), which influences nothing of it
(`Session.matches_run`).
-/

namespace TsQuery

/-! ### Changes -/

/-- A change of stored settings. -/
inductive Change
  | update (updates : Json.Members)
  | reset

/-- The limit that updates name, if it is an integer; the last one counts. -/
def Settings.namedLimit? (updates : Json.Members) : Option Int :=
  match (Json.Members.setAll [] updates).get? Settings.limitKey with
  | some (.int n) => some n
  | _ => none

/-- The limit that is stored after changes, the newest first, given whether each succeeded and what
was stored before: the one that the last successful update names since the last successful reset,
none after a reset. An update that names no limit keeps the one that is stored, or stores the
default. -/
def storedLimit? (initial : Option Int) : List (Change × Bool) → Option Int
  | [] => initial
  | (_, false) :: earlier => storedLimit? initial earlier
  | (.reset, true) :: _ => none
  | (.update updates, true) :: earlier =>
    some ((Settings.namedLimit? updates).getD
      ((storedLimit? initial earlier).getD Query.defaultLimit))

namespace Profile

/-- Makes a change: the disk and the profile as they are then, and whether it succeeded. A profile
stays as it is when the change fails. -/
def apply (profile : Profile) (disk : Disk) : Change → Disk × Profile × Bool
  | .update updates =>
    match profile.update updates disk with
    | (disk, .ok profile) => (disk, profile, true)
    | (disk, .error _) => (disk, profile, false)
  | .reset =>
    match profile.reset disk with
    | (disk, .ok profile) => (disk, profile, true)
    | (disk, .error _) => (disk, profile, false)

end Profile

/-! ### Updates -/

/-- A member of an object that is updated is that of the updates, else that of the object. -/
theorem Json.Members.get?_setAll (members updates : Members) (key : Text) :
    (setAll members updates).get? key =
      ((setAll [] updates).get? key).or (members.get? key) := by
  induction updates using List.reverseRecOn with
  | nil => rfl
  | append_singleton updates update ih =>
    obtain ⟨other, value⟩ := update
    have hset : ∀ first : Members,
        setAll first (updates ++ [(other, value)]) = set other value (setAll first updates) := by
      intro first
      rw [setAll, List.foldl_append]
      rfl
    rw [hset, hset]
    by_cases hkey : key = other
    · subst hkey
      rw [get?_set_self, get?_set_self, Option.some_or]
    · rw [get?_set_of_ne hkey, get?_set_of_ne hkey, ih]

namespace Settings

variable {settings next : Settings} {updates : Json.Members}

/-- Settings that are updated have the limit that the updates name, else the one they had, and it is
in range. -/
theorem withOverrides_spec (h : settings.withOverrides updates = .ok next) :
    next.maxQueryLength = (namedLimit? updates).getD settings.maxQueryLength ∧
      InRange next.maxQueryLength := by
  have hdescribed : described? (.object (settings.toMembers.setAll updates)) =
      some next.maxQueryLength := by
    have hoption := toOption_ofJson (.object (settings.toMembers.setAll updates))
    rw [← withOverrides, h] at hoption
    obtain ⟨n, hn, heq⟩ := Option.map_eq_some_iff.1 hoption.symm
    rw [hn, ← heq]
  refine ⟨?_, inRange_of_described? hdescribed⟩
  have hget := Json.Members.get?_setAll settings.toMembers updates limitKey
  have hold : Json.Members.get? settings.toMembers limitKey = some (.int settings.maxQueryLength) :=
    List.lookup_cons_self
  rw [hold] at hget
  unfold described? at hdescribed
  dsimp only at hdescribed
  split at hdescribed
  · rw [hget] at hdescribed
    unfold namedLimit?
    cases hnamed : (Json.Members.setAll [] updates).get? limitKey with
    | none =>
      rw [hnamed, Option.none_or] at hdescribed
      dsimp only at hdescribed
      split at hdescribed
      · exact (Option.some.inj hdescribed).symm
      · cases hdescribed
    | some value =>
      rw [hnamed, Option.some_or] at hdescribed
      cases value with
      | int n =>
        dsimp only at hdescribed
        split at hdescribed
        · exact (Option.some.inj hdescribed).symm
        · cases hdescribed
      | _ => cases hdescribed
  · cases hdescribed

end Settings

/-! ### The cell -/

theorem SettingsFile.ofBase_congr {disk other : Disk} (base? : Option Text)
    (h : other.workingFolder = disk.workingFolder) : ofBase other base? = ofBase disk base? := by
  unfold ofBase Disk.workingPath
  rw [h]

namespace Profile

/-- Whether a profile of the settings under a base path and a fresh load of them agree on the limit
that is stored, if any. -/
structure Agrees (profile : Profile) (disk : Disk) (base? : Option Text) (limit? : Option Int) :
    Prop where
  file_eq : profile.file = SettingsFile.ofBase disk base?
  isPlain : disk.IsPlainPath profile.file.base
  stored_eq : profile.stored = limit?.map Settings.mk
  load_eq : ∃ log, profile.file.load disk = .ok (limit?.map Settings.mk, log)

variable {profile : Profile} {disk : Disk} {base? : Option Text} {initial limit? : Option Int}
  {history : List (Change × Bool)}

/-- A profile that was just loaded agrees with a fresh load. -/
theorem agrees_of_load {log : Log} (hload : Profile.load disk base? = .ok (profile, log))
    (hplain : disk.IsPlainPath (SettingsFile.ofBase disk base?).base) :
    profile.Agrees disk base? (profile.stored.map Settings.maxQueryLength) := by
  unfold Profile.load at hload
  dsimp only at hload
  split at hload
  · cases hload
  · next stored _ hfile =>
    cases hload
    have hmap : (stored.map Settings.maxQueryLength).map Settings.mk = stored := by
      cases stored <;> rfl
    refine ⟨rfl, hplain, hmap.symm, log, ?_⟩
    rw [hmap]
    exact hfile

/-- The profile that is loaded where a profile and a fresh load agree. -/
theorem Agrees.exists_load_eq (h : profile.Agrees disk base? limit?) :
    ∃ log, Profile.load disk base? = .ok (profile, log) := by
  obtain ⟨log, hload⟩ := h.load_eq
  refine ⟨log, ?_⟩
  rw [h.file_eq, ← h.stored_eq] at hload
  unfold Profile.load
  dsimp only
  rw [hload]
  dsimp only
  rw [← h.file_eq]

/-- Agreement on the same limit where the same is seen of the settings file. -/
theorem Agrees.of_view {after : Disk} (h : profile.Agrees disk base? limit?)
    (hplain : after.IsPlainPath profile.file.base)
    (hworking : after.workingFolder = disk.workingFolder)
    (hview : after.view profile.file.path = disk.view profile.file.path) :
    profile.Agrees after base? limit? := by
  refine ⟨?_, hplain, h.stored_eq, ?_⟩
  · rw [h.file_eq, SettingsFile.ofBase_congr base? hworking]
  · rw [SettingsFile.load_congr hview]
    exact h.load_eq

/-- An update that succeeds puts the limit that it names into the cell, else the one that is there,
else the default; one that fails leaves the cell as it is. -/
theorem Agrees.exists_update (h : profile.Agrees disk base? (storedLimit? initial history))
    (updates : Json.Members) :
    ∃ after next succeeded, profile.apply disk (.update updates) = (after, next, succeeded) ∧
      next.Agrees after base? (storedLimit? initial ((.update updates, succeeded) :: history)) := by
  cases hover : profile.current.withOverrides updates with
  | error problems =>
    refine ⟨disk, profile, false, ?_, h⟩
    rw [apply, Profile.update, hover]
  | ok settings =>
    obtain ⟨hlimit, hrange⟩ := Settings.withOverrides_spec hover
    obtain ⟨after, result, hsave, hplain, hworking, hok, herror⟩ :=
      SettingsFile.save_spec h.isPlain settings
    cases result with
    | error error =>
      refine ⟨after, profile, false, ?_, h.of_view hplain hworking (herror error rfl)⟩
      rw [apply, Profile.update, hover]
      dsimp only
      rw [hsave]
    | ok =>
      have hcurrent : profile.current.maxQueryLength =
          (storedLimit? initial history).getD Query.defaultLimit := by
        rw [current, h.stored_eq]
        cases storedLimit? initial history <;> rfl
      have hcell : (storedLimit? initial ((.update updates, true) :: history)).map Settings.mk =
          some settings := by
        rw [storedLimit?, ← hcurrent, ← hlimit]
        rfl
      refine ⟨after, ⟨profile.file, some settings⟩, true, ?_, ?_, hplain, hcell.symm, ?_⟩
      · rw [apply, Profile.update, hover]
        dsimp only
        rw [hsave]
      · rw [SettingsFile.ofBase_congr base? hworking]
        exact h.file_eq
      · rw [hcell]
        exact SettingsFile.load_of_view hrange (hok rfl)

/-- A reset that succeeds empties the cell, one that fails leaves it as it is. -/
theorem Agrees.exists_reset (h : profile.Agrees disk base? (storedLimit? initial history)) :
    ∃ after next succeeded, profile.apply disk .reset = (after, next, succeeded) ∧
      next.Agrees after base? (storedLimit? initial ((.reset, succeeded) :: history)) := by
  obtain ⟨after, result, hremove, hplain, hworking, hok, herror⟩ :=
    SettingsFile.remove_spec h.isPlain
  cases result with
  | error error =>
    rw [herror error rfl] at hremove
    refine ⟨disk, profile, false, ?_, h⟩
    rw [apply, Profile.reset, hremove]
  | ok =>
    refine ⟨after, ⟨profile.file, none⟩, true, ?_, ?_, hplain, rfl, ?_⟩
    · rw [apply, Profile.reset, hremove]
    · rw [SettingsFile.ofBase_congr base? hworking]
      exact h.file_eq
    · exact (SettingsFile.Holds.absent (hok rfl)).load_eq rfl

/-- After a change, the profile and a fresh load agree on what the cell holds then. -/
theorem Agrees.exists_apply (h : profile.Agrees disk base? (storedLimit? initial history))
    (change : Change) :
    ∃ after next succeeded, profile.apply disk change = (after, next, succeeded) ∧
      next.Agrees after base? (storedLimit? initial ((change, succeeded) :: history)) := by
  cases change with
  | update updates => exact h.exists_update updates
  | reset => exact h.exists_reset

end Profile

/-! ### Sessions -/

/-- A service with its environment and disk, and the changes that were made so far, the newest
first, each with whether it succeeded. -/
structure Session where
  profile : Profile
  environment : Environment
  disk : Disk
  history : List (Change × Bool)

namespace Session

/-- What happens to a service: a change of the stored settings, or one of the environment. -/
inductive Event
  | change (change : Change)
  | environment (environment : Environment)

/-- The change of an event, if it is one of the stored settings. -/
def Event.change? : Event → Option Change
  | .change made => some made
  | .environment _ => none

/-- A session in which nothing has happened. -/
def start (profile : Profile) (environment : Environment) (disk : Disk) : Session :=
  ⟨profile, environment, disk, []⟩

/-- What an event makes of a session. -/
def step (session : Session) : Event → Session
  | .change change =>
    let (disk, profile, succeeded) := session.profile.apply session.disk change
    { session with profile, disk, history := (change, succeeded) :: session.history }
  | .environment environment => { session with environment }

/-- What events make of a session, one after another. -/
def run (session : Session) (events : List Event) : Session :=
  events.foldl step session

/-- Whether the profile of a session and a fresh load agree on what the cell holds. -/
def Agrees (session : Session) (base? : Option Text) (initial : Option Int) : Prop :=
  session.profile.Agrees session.disk base? (storedLimit? initial session.history)

variable {session other : Session} {base? : Option Text} {initial : Option Int}

theorem Agrees.step (h : session.Agrees base? initial) (event : Event) :
    (session.step event).Agrees base? initial := by
  cases event with
  | change change =>
    obtain ⟨after, next, succeeded, hchange, hagrees⟩ := Profile.Agrees.exists_apply h change
    unfold Session.step
    dsimp only
    rw [hchange]
    exact hagrees
  | environment environment => exact h

/-- Whatever happens, the profile of a session and a fresh load agree on what the cell holds. -/
theorem Agrees.run (h : session.Agrees base? initial) (events : List Event) :
    (session.run events).Agrees base? initial := by
  induction events generalizing session with
  | nil => exact h
  | cons event events ih => exact ih (h.step event)

/-- The changes among events. -/
def changes (events : List Event) : List Change :=
  events.filterMap Event.change?

/-- The changes that a session records are those among the events, the newest first. -/
theorem history_run (session : Session) (events : List Event) :
    (session.run events).history.map Prod.fst =
      (changes events).reverse ++ session.history.map Prod.fst := by
  induction events generalizing session with
  | nil => rfl
  | cons event events ih =>
    have hrun : session.run (event :: events) = (session.step event).run events := rfl
    rw [hrun, ih]
    cases event with
    | change change =>
      have hchanges : changes (.change change :: events) = change :: changes events := rfl
      rw [hchanges, List.reverse_cons, List.append_assoc]
      rfl
    | environment environment => rfl

/-! ### The environment -/

/-- Whether two sessions have the same profile, disk and changes; their environments may differ. -/
structure Matches (session other : Session) : Prop where
  profile_eq : session.profile = other.profile
  disk_eq : session.disk = other.disk
  history_eq : session.history = other.history

/-- Sessions that differ in their environments only still do so after the same change. -/
theorem Matches.step (h : session.Matches other) (change : Change) :
    (session.step (.change change)).Matches (other.step (.change change)) := by
  unfold Session.step
  dsimp only
  rw [h.profile_eq, h.disk_eq, h.history_eq]
  exact ⟨rfl, rfl, rfl⟩

/-- Events change the profile and the disk of a session as the changes among them do in another one,
whatever the environments are. -/
theorem Matches.run (h : session.Matches other) (events : List Event) :
    (session.run events).Matches (other.run ((changes events).map .change)) := by
  induction events generalizing session other with
  | nil => exact h
  | cons event events ih =>
    cases event with
    | change change => exact ih (h.step change)
    | environment environment => exact ih ⟨h.profile_eq, h.disk_eq, h.history_eq⟩

/-- The environment influences neither the profile nor the disk nor which changes succeed: they are
the same after all events with the same changes, in whichever environment a session begins. -/
theorem matches_run (profile : Profile) (disk : Disk) (environment otherEnvironment : Environment)
    {events others : List Event} (h : changes events = changes others) :
    ((start profile environment disk).run events).Matches
      ((start profile otherEnvironment disk).run others) := by
  have hfirst : (start profile environment disk).Matches (start profile otherEnvironment disk) :=
    ⟨rfl, rfl, rfl⟩
  have hself : (start profile otherEnvironment disk).Matches
      (start profile otherEnvironment disk) := ⟨rfl, rfl, rfl⟩
  have hleft := hfirst.run events
  have hright := hself.run others
  rw [h] at hleft
  exact ⟨hleft.profile_eq.trans hright.profile_eq.symm, hleft.disk_eq.trans hright.disk_eq.symm,
    hleft.history_eq.trans hright.history_eq.symm⟩

end Session

end TsQuery
