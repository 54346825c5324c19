import TsQuery.CommandLine.Run

/-!
# From arguments to a run

Arguments are read event by event, so what every event keeps holds of all that is read
(`CommandLine.readArguments_induction`).  A limit on the length of a query is only taken if it is
positive; so a command line never asks for another one (`CommandLine.Invocation.limit_pos`).  The
command that is read decides what a run leaves (`CommandLine.run_eq`).
-/

namespace TsQuery

namespace CommandLine

/-- What holds before the first event and is kept by each holds of what is read. -/
theorem readArguments_induction {α σ : Type} [DecidableEq α] {table : OptionTable α}
    {awaited : Awaited} {page : Page} {read : σ → Event α → Except Stop σ} {none found : σ}
    {arguments : List Text} (p : σ → Prop) (hnone : p none)
    (hread : ∀ {state event next}, p state → read state event = .ok next → p next)
    (h : readArguments table awaited page read none arguments = .ok found) : p found := by
  unfold readArguments at h
  split at h
  · cases h
  · next pieces =>
    have hfold : ∀ (events : List (Event α)) (state : σ), p state →
        events.foldlM read state = .ok found → p found := by
      intro events
      induction events with
      | nil =>
        intro state hstate h
        cases h
        exact hstate
      | cons event events ih =>
        intro state hstate h
        rw [List.foldlM_cons] at h
        cases hevent : read state event with
        | error stop =>
          rw [hevent] at h
          cases h
        | ok next =>
          rw [hevent] at h
          exact ih next (hread hstate hevent) h
    exact hfold _ none hnone h

/-! ### Limits -/

theorem exists_of_map_eq_ok {α β ε : Type} {result : Except ε α} {f : α → β} {value : β}
    (h : result.map f = .ok value) : ∃ first, result = .ok first ∧ f first = value := by
  cases result with
  | error error => cases h
  | ok first =>
    cases h
    exact ⟨first, rfl, rfl⟩

/-- The limit that a command asks for. -/
def Command.limit? : Command → Option Int
  | .compile _ limit? _ => limit?
  | .terms _ limit? => limit?
  | .config _ => none
  | .serve => none

/-- A limit that is read is positive. -/
theorem readLimit_pos {text : Text} {n : Int} (h : readLimit text = .ok n) : 0 < n := by
  unfold readLimit at h
  split at h
  · cases h
  · split at h
    · cases h
    · next hpos =>
      cases h
      omega

/-- The limit that is read for a command on a query is positive. -/
theorem readQuery_limit_pos {page : Page} {arguments : List Text} {query : Text}
    {found : QueryArguments} (h : readQuery page arguments = .ok (query, found)) :
    ∀ n ∈ found.limit?, 0 < n := by
  unfold readQuery at h
  dsimp only at h
  split at h
  · cases h
  · next hread =>
    split at h
    · cases h
    · cases h
      refine readArguments_induction (fun arguments => ∀ n ∈ arguments.limit?, 0 < n) nofun ?_ hread
      intro state event next hstate hnext
      unfold QueryArguments.read at hnext
      split at hnext
      · cases hnext
      · cases hnext
        exact nofun
      · split at hnext
        · next hlimit =>
          cases hnext
          rintro _ ⟨⟩
          exact readLimit_pos hlimit
        · cases hnext
      · cases hnext
        exact hstate
      · cases hnext
        exact hstate
      · cases hnext
        exact hstate
      · cases hnext

/-- The limit of a command that is read is positive. -/
theorem readCommand_limit_pos {name : Text} {arguments : List Text} {command : Command}
    {extras : List Text} (h : readCommand name arguments = .ok (command, extras)) :
    ∀ n ∈ command.limit?, 0 < n := by
  unfold readCommand at h
  split at h
  · obtain ⟨⟨query, found⟩, hread, heq⟩ := exists_of_map_eq_ok h
    cases heq
    exact readQuery_limit_pos hread
  split at h
  · obtain ⟨⟨query, found⟩, hread, heq⟩ := exists_of_map_eq_ok h
    cases heq
    exact readQuery_limit_pos hread
  split at h
  · obtain ⟨_, -, heq⟩ := exists_of_map_eq_ok h
    cases heq
    exact nofun
  split at h
  · obtain ⟨_, -, heq⟩ := exists_of_map_eq_ok h
    cases heq
    exact nofun
  · cases h

/-- The limit that a command line asks for is positive. -/
theorem Invocation.limit_pos {arguments : List Text} {invocation : Invocation}
    (h : Invocation.ofArguments arguments = .ok invocation) :
    ∀ n ∈ invocation.command.limit?, 0 < n := by
  unfold Invocation.ofArguments at h
  split at h
  · cases h
  · next found hread =>
    have hfound : ∀ command ∈ found.command?, ∀ n ∈ command.limit?, 0 < n := by
      refine readArguments_induction
        (fun arguments => ∀ command ∈ arguments.command?, ∀ n ∈ command.limit?, 0 < n)
        nofun ?_ hread
      intro state event next hstate hnext
      cases event with
      | option option values =>
        cases option <;> cases hnext
        · exact hstate
        · exact hstate
      | operand name following =>
        obtain ⟨⟨command, extras⟩, hcommand, rfl⟩ := exists_of_map_eq_ok hnext
        rintro _ ⟨⟩
        exact readCommand_limit_pos hcommand
      | extra text =>
        cases hnext
        exact hstate
      | problem problem => cases hnext
    split at h
    · cases h
    · split at h
      · cases h
      · next command hcommand =>
        cases h
        exact hfound command hcommand

/-! ### Runs -/

/-- A failed run does not end with the exit code of one that succeeds. -/
theorem Failure.ending_ne (failure : Failure) : failure.ending ≠ .exit 0 := by
  cases failure with
  | refused refusal => exact nofun
  | invalid problems => exact nofun
  | complaints found => exact nofun
  | disk error =>
    unfold ending
    dsimp only
    split <;> exact nofun
  | unprintable fault => exact nofun

/-- A run ends with one code only. -/
theorem Outcome.ending_ne_exit {outcome : Outcome} {code other : Nat}
    (h : outcome.ending = .exit code) (hne : code ≠ other) : outcome.ending ≠ .exit other :=
  fun heq => hne (Ending.exit.inj (h.symm.trans heq))

/-- What running a command line leaves, given what its command gives: what there is to print is
printed, if that can be done. -/
theorem run_eq {arguments : List Text} {environment : Environment} {disk after : Disk}
    {invocation : Invocation} (harguments : Invocation.ofArguments arguments = .ok invocation)
    {log : Log} {result : Except Failure Text}
    (hrun : invocation.command.run invocation.base? environment disk = ⟨after, log, result⟩) :
    (run arguments environment disk).disk = after ∧
      (∀ output, result.bind printed = .ok output →
        (run arguments environment disk).ending = .exit 0 ∧
        (run arguments environment disk).output = output ∧
        (run arguments environment disk).errors = []) ∧
      (∀ failure, result.bind printed = .error failure →
        (run arguments environment disk).ending = failure.ending ∧
        (run arguments environment disk).output = [] ∧
        (run arguments environment disk).errors = failure.errors) := by
  unfold run
  rw [harguments]
  dsimp only
  rw [hrun]
  dsimp only
  cases result.bind printed with
  | ok output =>
    refine ⟨rfl, ?_, nofun⟩
    rintro _ ⟨⟩
    exact ⟨rfl, rfl, rfl⟩
  | error failure =>
    refine ⟨rfl, nofun, ?_⟩
    rintro _ ⟨⟩
    exact ⟨rfl, rfl, rfl⟩

end CommandLine

end TsQuery
