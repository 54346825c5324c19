import Mathlib
import TsQuery.CommandLine.Run
import TsQuery.Proofs.CommandLine.Arguments
import TsQuery.Proofs.CommandLine.Printed
import TsQuery.Proofs.Settings.Encoding

/-!
# Commands on a query

The commands that compile a query and list its terms end in one of three ways, and the query, the
limit that is asked for, the settings file and the environment decide in which
(`CommandLine.Outcome.Answers`): a limit above the greatest one is an invalid setting, a query that
is empty, blank or longer than the limit is refused, and any other query is answered.  The disk is
left as it is.

That is so with two exceptions (`CommandLine.run_onQuery`).  A settings file with too many arrays
and objects within each other breaks the run off.  And an answer that cannot be printed ends it as
invalid settings do; only a compiled text can be such an answer, and only that of a query with half
of a surrogate pair (`CommandLine.Command.OnQuery.isEncodable`).
-/

namespace TsQuery

/-! ### Acceptance -/

namespace Query

/-- Whether a text is no query under a limit: it is empty, blank, or longer. -/
def IsRefused (limit : Int) (query : Text) : Prop :=
  query = [] ∨ query.isAllBlank = true ∨ limit < query.length

/-- A text that is no query is refused. -/
theorem exists_accept_eq_error {limit : Int} {query : Text} (h : IsRefused limit query) :
    ∃ refusal, accept limit (.string query) = .error refusal := by
  unfold accept
  dsimp only
  split_ifs with hnil hblank hlong
  · exact ⟨_, rfl⟩
  · exact ⟨_, rfl⟩
  · exact ⟨_, rfl⟩
  · rcases h with h | h | h
    · exact absurd h hnil
    · exact absurd h hblank
    · exact absurd h hlong

/-- Any other text is accepted. -/
theorem accept_eq_ok {limit : Int} {query : Text} (h : ¬IsRefused limit query) :
    accept limit (.string query) = .ok query := by
  simp only [IsRefused, not_or] at h
  obtain ⟨hnil, hblank, hlong⟩ := h
  unfold accept
  dsimp only
  rw [if_neg hnil, if_neg hblank, if_neg hlong]

end Query

/-! ### Messages -/

theorem Text.ofString_append (s t : String) : ofString (s ++ t) = ofString s ++ ofString t := by
  rw [ofString, String.toList_append, ofChars, List.map_append]
  rfl

theorem lineFeed_notMem_append {s t : String} (hs : .char '\n' ∉ Text.ofString s)
    (ht : .char '\n' ∉ Text.ofString t) : .char '\n' ∉ Text.ofString (s ++ t) := by
  rw [Text.ofString_append, List.mem_append, not_or]
  exact ⟨hs, ht⟩

/-- The decimal form of an integer has no line break. -/
theorem lineFeed_notMem_toString (n : Int) : .char '\n' ∉ Text.ofString (toString n) := by
  have hdigits : ∀ m : Nat, .char '\n' ∉ Text.ofString (Nat.repr m) := by
    intro m hmem
    rw [Text.ofString, Nat.toList_repr] at hmem
    obtain ⟨c, hc, heq⟩ := List.mem_map.1 hmem
    have hdigit : c.isDigit = true := Nat.isDigit_of_mem_toDigits (by decide) (by decide) hc
    cases heq
    exact absurd hdigit (by decide)
  cases n with
  | ofNat m => exact hdigits m
  | negSucc m =>
    have htext : toString (Int.negSucc m) = "-" ++ Nat.repr (m + 1) := rfl
    rw [htext]
    exact lineFeed_notMem_append (by decide) (hdigits (m + 1))

/-- The reason of a refusal is told on one line. -/
theorem Refusal.lineFeed_notMem_message (refusal : Refusal) :
    .char '\n' ∉ Text.ofString refusal.message := by
  unfold message
  split
  · decide
  · decide
  · next limit hreason =>
    have htext : (s!"Query exceeds maximum length of {limit} characters" : String) =
        "Query exceeds maximum length of " ++ toString limit ++ " characters" := rfl
    rw [htext]
    exact lineFeed_notMem_append
      (lineFeed_notMem_append (by decide) (lineFeed_notMem_toString limit)) (by decide)
  · decide

/-- The digits of a fault have no line break, as the rest of its message. -/
theorem lineFeed_notMem_hexText (width n : Nat) : .char '\n' ∉ hexText width n := by
  have hdigit : ∀ digit < 16, Nat.digitChar digit ≠ '\n' := by decide
  induction width generalizing n with
  | zero => exact List.not_mem_nil
  | succ width ih =>
    rw [hexText, List.mem_append, not_or, List.mem_singleton]
    refine ⟨ih (n / 16), fun heq => ?_⟩
    exact hdigit (n % 16) (Nat.mod_lt n (by decide)) (CodePoint.char.inj heq).symm

/-- What cannot be encoded is told on one line. -/
theorem Utf8.EncodingFault.lineFeed_notMem_message (fault : EncodingFault) :
    .char '\n' ∉ fault.message := by
  have hnumber (n : Nat) : .char '\n' ∉ Text.ofString (toString n) := lineFeed_notMem_toString n
  unfold message
  dsimp only
  rw [List.mem_append, List.mem_append, not_or, not_or]
  refine ⟨⟨by decide, ?_⟩, by decide⟩
  split
  · rw [List.mem_append, List.mem_append, not_or, not_or]
    exact ⟨⟨by decide, lineFeed_notMem_hexText 4 _⟩,
      lineFeed_notMem_append (by decide) (hnumber _)⟩
  · exact lineFeed_notMem_append (lineFeed_notMem_append
      (lineFeed_notMem_append (by decide) (hnumber _)) (by decide)) (hnumber _)

namespace CommandLine

/-! ### Commands -/

/-- A limit that is asked for is in force if it is in range, and is an invalid setting if it is too
great. -/
theorem limitFor_eq (settings : Settings) {limit? : Option Int} (hpos : ∀ n ∈ limit?, 0 < n) :
    ((∃ n ∈ limit?, Settings.maxLimit < n) →
        ∃ problems, limitFor settings limit? = .error (.invalid problems)) ∧
      ((¬∃ n ∈ limit?, Settings.maxLimit < n) →
        limitFor settings limit? = .ok (limit?.getD settings.maxQueryLength)) := by
  cases limit? with
  | none => exact ⟨nofun, fun _ => rfl⟩
  | some n =>
    have hn : 0 < n := hpos n rfl
    have hoption := Environment.withOverrides_limit settings n
    unfold limitFor
    dsimp only
    cases hover : settings.withOverrides [(Settings.limitKey, .int n)] with
    | error problems =>
      rw [hover] at hoption
      have hrange : ¬Settings.InRange n := by
        intro hrange
        rw [if_pos hrange] at hoption
        cases hoption
      refine ⟨fun _ => ⟨problems, rfl⟩, fun hnone => absurd ⟨n, rfl, ?_⟩ hnone⟩
      unfold Settings.InRange at hrange
      omega
    | ok overridden =>
      rw [hover] at hoption
      by_cases hrange : Settings.InRange n
      · rw [if_pos hrange] at hoption
        cases hoption
        refine ⟨?_, fun _ => rfl⟩
        rintro ⟨_, ⟨⟩, hgreat⟩
        exact absurd hrange.2 (not_le.2 hgreat)
      · rw [if_neg hrange] at hoption
        cases hoption

/-- A command on a query, the limit that it asks for, and what it prints for a query that is
accepted. -/
inductive Command.OnQuery : Command → Text → Option Int → Text → Prop
  | text (query : Text) (limit? : Option Int) :
    OnQuery (.compile query limit? false) query limit? (Query.compiled query).text
  | json (query : Text) (limit? : Option Int) :
    OnQuery (.compile query limit? true) query limit?
      (Json.ofMembers (Query.compiled query).toMembers).write
  | terms (query : Text) (limit? : Option Int) :
    OnQuery (.terms query limit?) query limit?
      (Json.ofMembers (Query.vocabulary query).toMembers).write

namespace Command.OnQuery

variable {command : Command} {query printed : Text} {limit? : Option Int}

theorem limit?_eq (h : command.OnQuery query limit? printed) : command.limit? = limit? := by
  cases h <;> rfl

/-- A command on a query does something with the limit that is in force: it refuses the query or
answers it. -/
theorem exists_run_eq (h : command.OnQuery query limit? printed) (base? : Option Text)
    (environment : Environment) (disk : Disk) :
    ∃ action, command.run base? environment disk = runQuery base? limit? environment disk action ∧
      ∀ limit, (Query.IsRefused limit query → ∃ log refusal, action limit = (log, .error refusal)) ∧
        (¬Query.IsRefused limit query → ∃ log, action limit = (log, .ok (line printed))) := by
  have hcompile : ∀ json limit, (Query.IsRefused limit query →
      ∃ log refusal, runCompile query json limit = (log, .error refusal)) ∧
      (¬Query.IsRefused limit query → ∃ log, runCompile query json limit = (log, .ok (line
        (if json then (Json.ofMembers (Query.compiled query).toMembers).write
          else (Query.compiled query).text)))) := by
    intro json limit
    unfold runCompile Query.compile
    constructor
    · intro hrefused
      obtain ⟨refusal, haccept⟩ := Query.exists_accept_eq_error hrefused
      rw [haccept]
      exact ⟨[], refusal, rfl⟩
    · intro haccepted
      rw [Query.accept_eq_ok haccepted]
      exact ⟨Query.compileLog query, rfl⟩
  cases h with
  | text => exact ⟨_, rfl, hcompile false⟩
  | json => exact ⟨_, rfl, hcompile true⟩
  | terms =>
    refine ⟨runTerms query, rfl, fun limit => ?_⟩
    unfold runTerms Query.extractTerms
    constructor
    · intro hrefused
      obtain ⟨refusal, haccept⟩ := Query.exists_accept_eq_error hrefused
      rw [haccept]
      exact ⟨[], refusal, rfl⟩
    · intro haccepted
      rw [Query.accept_eq_ok haccepted]
      exact ⟨[], rfl⟩

/-- An answer can be printed unless it is the compiled text of a query with half of a surrogate
pair. -/
theorem isEncodable (h : command.OnQuery query limit? printed) :
    printed.IsEncodable ∨ ¬query.IsEncodable ∧ command = .compile query limit? false := by
  cases h with
  | text =>
    by_cases hquery : query.IsEncodable
    · exact Or.inl (Query.isEncodable_compiled hquery)
    · exact Or.inr ⟨hquery, rfl⟩
  | json => exact Or.inl (Json.isEncodable_write _)
  | terms => exact Or.inl (Json.isEncodable_write _)

end Command.OnQuery

/-! ### Outcomes -/

/-- Whether error output is one line that tells of an error. -/
def IsErrorLine (errors : Text) : Prop :=
  ∃ message : Text, .char '\n' ∉ message ∧ errors = errorLine message

/-- Whether an outcome is the one that a query has with a limit on its length, given the limit that
is asked for, if there is one, and what there is to print: code 3 and no output exactly if a limit
above the greatest one is asked for; otherwise code 2, no output and one line on the error output
exactly if the query is empty, blank or longer than the limit; and otherwise code 0, the output and
nothing on the error output.  The disk is left as it is. -/
structure Outcome.Answers (outcome : Outcome) (limit? : Option Int) (limit : Int)
    (query printed : Text) (disk : Disk) : Prop where
  three_iff : outcome.ending = .exit 3 ∧ outcome.output = [] ↔ ∃ n ∈ limit?, Settings.maxLimit < n
  two_iff : outcome.ending = .exit 2 ∧ outcome.output = [] ∧ IsErrorLine outcome.errors ↔
    (¬∃ n ∈ limit?, Settings.maxLimit < n) ∧ Query.IsRefused limit query
  zero_iff : outcome.ending = .exit 0 ∧ outcome.output = line printed ∧ outcome.errors = [] ↔
    (¬∃ n ∈ limit?, Settings.maxLimit < n) ∧ ¬Query.IsRefused limit query
  disk_eq : outcome.disk = disk

namespace Outcome.Answers

variable {outcome : Outcome} {limit? : Option Int} {limit : Int} {query printed : Text}
  {disk : Disk}

theorem of_tooGreat (htoo : ∃ n ∈ limit?, Settings.maxLimit < n)
    (hending : outcome.ending = .exit 3) (houtput : outcome.output = [])
    (hdisk : outcome.disk = disk) :
    outcome.Answers limit? limit query printed disk where
  three_iff := iff_of_true ⟨hending, houtput⟩ htoo
  two_iff := iff_of_false (fun h => ending_ne_exit hending (by decide) h.1) fun h => h.1 htoo
  zero_iff := iff_of_false (fun h => ending_ne_exit hending (by decide) h.1) fun h => h.1 htoo
  disk_eq := hdisk

theorem of_refused (htoo : ¬∃ n ∈ limit?, Settings.maxLimit < n)
    (hrefused : Query.IsRefused limit query) (hending : outcome.ending = .exit 2)
    (houtput : outcome.output = []) (herrors : IsErrorLine outcome.errors)
    (hdisk : outcome.disk = disk) : outcome.Answers limit? limit query printed disk where
  three_iff := iff_of_false (fun h => ending_ne_exit hending (by decide) h.1) htoo
  two_iff := iff_of_true ⟨hending, houtput, herrors⟩ ⟨htoo, hrefused⟩
  zero_iff := iff_of_false (fun h => ending_ne_exit hending (by decide) h.1) fun h =>
    h.2 hrefused
  disk_eq := hdisk

theorem of_accepted (htoo : ¬∃ n ∈ limit?, Settings.maxLimit < n)
    (haccepted : ¬Query.IsRefused limit query) (hending : outcome.ending = .exit 0)
    (houtput : outcome.output = line printed) (herrors : outcome.errors = [])
    (hdisk : outcome.disk = disk) : outcome.Answers limit? limit query printed disk where
  three_iff := iff_of_false (fun h => ending_ne_exit hending (by decide) h.1) htoo
  two_iff := iff_of_false (fun h => ending_ne_exit hending (by decide) h.1) fun h =>
    haccepted h.2
  zero_iff := iff_of_true ⟨hending, houtput, herrors⟩ ⟨htoo, haccepted⟩
  disk_eq := hdisk

/-- A query has an outcome with a code. -/
theorem exists_exit (h : outcome.Answers limit? limit query printed disk) :
    ∃ code, outcome.ending = .exit code := by
  by_cases htoo : ∃ n ∈ limit?, Settings.maxLimit < n
  · exact ⟨3, (h.three_iff.2 htoo).1⟩
  · by_cases hrefused : Query.IsRefused limit query
    · exact ⟨2, (h.two_iff.2 ⟨htoo, hrefused⟩).1⟩
    · exact ⟨0, (h.zero_iff.2 ⟨htoo, hrefused⟩).1⟩

end Outcome.Answers

/-! ### Runs -/

section

variable {arguments : List Text} {base? : Option Text} {verbose : Bool} {command : Command}
  {query printed : Text} {limit? : Option Int} {disk : Disk} {content : Option Bytes}
  (harguments : Invocation.ofArguments arguments = .ok ⟨base?, verbose, command⟩)
  (hcommand : command.OnQuery query limit? printed)
  (hcontent : (SettingsFile.ofBase disk base?).Holds disk content) (environment : Environment)

include harguments hcommand hcontent

/-- A run breaks off at the bracket at which reading the settings file does. -/
theorem run_onQuery_of_overflow {bracket : CodePoint}
    (hnesting : content.bind Json.overflowOfBytes? = some bracket) :
    (run arguments environment disk).ending = .broken (.tooNested bracket) ∧
      (run arguments environment disk).output = [] ∧
      (run arguments environment disk).errors = [] ∧
      (run arguments environment disk).disk = disk := by
  obtain ⟨action, hrun, -⟩ := hcommand.exists_run_eq base? environment disk
  rw [runQuery, Profile.load_eq_error hcontent hnesting] at hrun
  obtain ⟨hdisk, -, hfailure⟩ := run_eq harguments hrun
  obtain ⟨hending, houtput, herrors⟩ := hfailure _ rfl
  exact ⟨hending, houtput, herrors, hdisk⟩

variable (hnesting : content.bind Json.overflowOfBytes? = none)

include hnesting

/-- A limit above the greatest one is an invalid setting. -/
theorem run_onQuery_of_tooGreat (htoo : ∃ n ∈ limit?, Settings.maxLimit < n) (limit : Int) :
    (run arguments environment disk).Answers limit? limit query printed disk := by
  have hpos : ∀ n ∈ limit?, 0 < n := hcommand.limit?_eq ▸ Invocation.limit_pos harguments
  obtain ⟨action, hrun, -⟩ := hcommand.exists_run_eq base? environment disk
  obtain ⟨profile, opened, hload, -⟩ := Profile.exists_load_eq hcontent hnesting
  obtain ⟨problems, hlimit⟩ := (limitFor_eq (profile.settings environment).1 hpos).1 htoo
  rw [runQuery, hload] at hrun
  dsimp only at hrun
  rw [hlimit] at hrun
  obtain ⟨hdisk, -, hfailure⟩ := run_eq harguments hrun
  obtain ⟨hending, houtput, -⟩ := hfailure _ rfl
  exact .of_tooGreat htoo hending houtput hdisk

/-- With any other limit the query is refused or answered. -/
theorem run_onQuery_of_limit (htoo : ¬∃ n ∈ limit?, Settings.maxLimit < n) :
    ∃ log result, command.run base? environment disk = ⟨disk, log, result⟩ ∧
      (Query.IsRefused (limit?.getD (limitInForce content environment)) query →
        ∃ refusal, result = .error (.refused refusal)) ∧
      (¬Query.IsRefused (limit?.getD (limitInForce content environment)) query →
        result = .ok (line printed)) := by
  have hpos : ∀ n ∈ limit?, 0 < n := hcommand.limit?_eq ▸ Invocation.limit_pos harguments
  obtain ⟨action, hrun, haction⟩ := hcommand.exists_run_eq base? environment disk
  obtain ⟨profile, opened, hload, hforce⟩ := Profile.exists_load_eq hcontent hnesting
  have hlimit := (limitFor_eq (profile.settings environment).1 hpos).2 htoo
  rw [hforce environment] at hlimit
  obtain ⟨hrefused, haccepted⟩ := haction (limit?.getD (limitInForce content environment))
  rw [runQuery, hload] at hrun
  dsimp only at hrun
  rw [hlimit] at hrun
  dsimp only at hrun
  refine ⟨_, _, hrun, fun h => ?_, fun h => ?_⟩
  · obtain ⟨log, refusal, heq⟩ := hrefused h
    rw [heq]
    exact ⟨refusal, rfl⟩
  · obtain ⟨log, heq⟩ := haccepted h
    rw [heq]
    rfl

/-- An answer that cannot be printed ends a run as an invalid setting does. -/
theorem run_onQuery_of_unprintable (htoo : ¬∃ n ∈ limit?, Settings.maxLimit < n)
    (haccepted : ¬Query.IsRefused (limit?.getD (limitInForce content environment)) query)
    {fault : Utf8.EncodingFault}
    (hfault : Utf8.encodingFault? CodePoint.isHalf (line printed) = some fault) :
    (run arguments environment disk).ending = .exit 3 ∧
      (run arguments environment disk).output = [] ∧
      (run arguments environment disk).errors = errorLine fault.message ∧
      IsErrorLine (run arguments environment disk).errors ∧
      (run arguments environment disk).disk = disk := by
  obtain ⟨log, result, hrun, -, hresult⟩ :=
    run_onQuery_of_limit harguments hcommand hcontent environment hnesting htoo
  rw [hresult haccepted] at hrun
  obtain ⟨hdisk, -, hfailure⟩ := run_eq harguments hrun
  obtain ⟨hending, houtput, herrors⟩ := hfailure _ (printed_eq_error hfault)
  exact ⟨hending, houtput, herrors, ⟨_, fault.lineFeed_notMem_message, herrors⟩, hdisk⟩

end

/-- Whatever the settings file holds and whatever the environment, a command on a query has the
outcome that the query has with the limit that is asked for or else the one in force, exactly if
reading the settings file does not break off and an answer can be printed.  If reading breaks off,
so does the run.  An answer that cannot be printed ends it with code 3, no output, and one line on
the error output, as if settings were invalid; only the compiled text of a query with half of a
surrogate pair is such an answer. -/
theorem run_onQuery {arguments : List Text} {base? : Option Text} {verbose : Bool}
    {command : Command} {query printed : Text} {limit? : Option Int} {disk : Disk}
    {content : Option Bytes}
    (harguments : Invocation.ofArguments arguments = .ok ⟨base?, verbose, command⟩)
    (hcommand : command.OnQuery query limit? printed)
    (hcontent : (SettingsFile.ofBase disk base?).Holds disk content)
    (environment : Environment) :
    let outcome := run arguments environment disk
    let limit := limit?.getD (limitInForce content environment)
    let isAnswered := (¬∃ n ∈ limit?, Settings.maxLimit < n) ∧ ¬Query.IsRefused limit query
    (outcome.Answers limit? limit query printed disk ↔
      content.bind Json.overflowOfBytes? = none ∧ (isAnswered → printed.IsEncodable)) ∧
    (∀ bracket, content.bind Json.overflowOfBytes? = some bracket →
      outcome.ending = .broken (.tooNested bracket) ∧ outcome.output = [] ∧ outcome.errors = [] ∧
        outcome.disk = disk) ∧
    (content.bind Json.overflowOfBytes? = none → isAnswered → ∀ fault,
      Utf8.encodingFault? CodePoint.isHalf (line printed) = some fault →
      outcome.ending = .exit 3 ∧ outcome.output = [] ∧ outcome.errors = errorLine fault.message ∧
        IsErrorLine outcome.errors ∧ outcome.disk = disk) ∧
    (printed.IsEncodable ∨ ¬query.IsEncodable ∧ command = .compile query limit? false) := by
  intro outcome limit isAnswered
  have hbreaks (bracket : CodePoint) (h : content.bind Json.overflowOfBytes? = some bracket) :=
    run_onQuery_of_overflow harguments hcommand hcontent environment h
  have hfails (hnesting : content.bind Json.overflowOfBytes? = none) (h : isAnswered)
      (fault : Utf8.EncodingFault)
      (hfault : Utf8.encodingFault? CodePoint.isHalf (line printed) = some fault) :=
    run_onQuery_of_unprintable harguments hcommand hcontent environment hnesting h.1 h.2 hfault
  refine ⟨⟨fun hanswers => ?_, ?_⟩, hbreaks, hfails, hcommand.isEncodable⟩
  · have hnesting : content.bind Json.overflowOfBytes? = none := by
      -- A run that breaks off has no code.
      obtain ⟨code, hcode⟩ := hanswers.exists_exit
      by_contra hsome
      obtain ⟨bracket, hbracket⟩ := Option.ne_none_iff_exists'.1 hsome
      cases hcode.symm.trans (hbreaks bracket hbracket).1
    refine ⟨hnesting, fun hanswered => ?_⟩
    -- Otherwise there is code 3, which is only for limits that are too great.
    by_contra hhalf
    obtain ⟨fault, hfault⟩ := exists_encodingFault?_eq_some (mt isEncodable_line.1 hhalf)
    obtain ⟨hending, houtput, -⟩ := hfails hnesting hanswered fault hfault
    exact hanswered.1 (hanswers.three_iff.1 ⟨hending, houtput⟩)
  · rintro ⟨hnesting, hprints⟩
    by_cases htoo : ∃ n ∈ limit?, Settings.maxLimit < n
    · exact run_onQuery_of_tooGreat harguments hcommand hcontent environment hnesting htoo limit
    · obtain ⟨log, result, hrun, hrefusal, hresult⟩ :=
        run_onQuery_of_limit harguments hcommand hcontent environment hnesting htoo
      by_cases hno : Query.IsRefused limit query
      · obtain ⟨refusal, rfl⟩ := hrefusal hno
        obtain ⟨hdisk, -, hfailure⟩ := run_eq harguments hrun
        obtain ⟨hending, houtput, herrors⟩ := hfailure _ rfl
        exact .of_refused htoo hno hending houtput
          ⟨_, refusal.lineFeed_notMem_message, herrors⟩ hdisk
      · rw [hresult hno] at hrun
        have hprinted := printed_of_isEncodable (isEncodable_line.2 (hprints ⟨htoo, hno⟩))
        obtain ⟨hdisk, hsuccess, -⟩ := run_eq harguments hrun
        obtain ⟨hending, houtput, herrors⟩ := hsuccess _ hprinted
        exact .of_accepted htoo hno hending houtput herrors hdisk

/-- A query that is longer than the limit that is asked for ends the run with code 2. -/
theorem run_onQuery_of_tooLong :
    Invocation.ofArguments ["compile", "cats", "--max-length", "3"] =
        .ok ⟨none, false, .compile "cats" (some 3) false⟩ ∧
      (Command.compile "cats" (some 3) false).OnQuery "cats" (some 3)
        (Query.compiled "cats").text ∧
      (SettingsFile.ofBase ⟨[], []⟩ none).Holds ⟨[], []⟩ none ∧
      (run ["compile", "cats", "--max-length", "3"] ⟨none, none⟩ ⟨[], []⟩).ending = .exit 2 ∧
      (run ["compile", "cats", "--max-length", "3"] ⟨none, none⟩ ⟨[], []⟩).output = [] := by
  have harguments : Invocation.ofArguments ["compile", "cats", "--max-length", "3"] =
      .ok ⟨none, false, .compile "cats" (some 3) false⟩ := by cbv
  have hcommand : (Command.compile "cats" (some 3) false).OnQuery "cats" (some 3)
      (Query.compiled "cats").text := .text "cats" (some 3)
  have hcontent : (SettingsFile.ofBase ⟨[], []⟩ none).Holds ⟨[], []⟩ none := .absent (by cbv)
  obtain ⟨hanswers, -, -, -⟩ := run_onQuery harguments hcommand hcontent ⟨none, none⟩
  have hgreat : ¬∃ n ∈ some (3 : Int), Settings.maxLimit < n := by
    rintro ⟨_, ⟨⟩, hlt⟩
    exact absurd hlt (by decide)
  have hlong : Query.IsRefused 3 "cats" := Or.inr (Or.inr (by decide))
  have houtcome := hanswers.2 ⟨rfl, fun h => absurd hlong h.2⟩
  obtain ⟨hending, houtput, -⟩ := houtcome.two_iff.2 ⟨hgreat, hlong⟩
  exact ⟨harguments, hcommand, hcontent, hending, houtput⟩

/-- A disk with a settings file under its working folder. -/
def diskWith (bytes : Bytes) : Disk where
  entries := [([".tsquery_compiler"], .folder),
    (["compiler_config.json", ".tsquery_compiler"], .file bytes)]
  workingFolder := []

theorem holds_diskWith (bytes : Bytes) :
    (SettingsFile.ofBase (diskWith bytes) none).Holds (diskWith bytes) (some bytes) :=
  .present (by cbv) (by cbv)

/-- A settings file of opening brackets. -/
def bracketBytes : Bytes :=
  Utf8.encode (List.replicate 20000 '[')

theorem overflowOfBytes?_bracketBytes :
    Json.overflowOfBytes? bracketBytes = some (.char '[') := by
  have hmore : Json.maxNesting < 20000 := by decide
  exact Json.overflowOfBytes?_replicate hmore

/-- A query with half of a surrogate pair, as a byte that is no character is given. -/
def halfQuery : Text :=
  ['a', .half 0x480]

-- Whether its one word is a keyword is decided by its lower case, so by the table of small letters.
set_option maxRecDepth 4000 in
theorem text_compiled_halfQuery : (Query.compiled halfQuery).text = halfQuery := by
  cbv

/-- A query does not have its outcome with every settings file, as one of opening brackets breaks
the run off; and even where there is no settings file, not every query has, as one with half of a
surrogate pair cannot be printed once it is compiled. -/
theorem not_forall_answers :
    (¬∀ (disk : Disk) (content : Option Bytes),
      (SettingsFile.ofBase disk none).Holds disk content →
      (run ["compile", "cats"] ⟨none, none⟩ disk).Answers none
        (limitInForce content ⟨none, none⟩) "cats" (Query.compiled "cats").text disk) ∧
    ¬∀ query : Text,
      Invocation.ofArguments ["compile", query] = .ok ⟨none, false, .compile query none false⟩ →
      (run ["compile", query] ⟨none, none⟩ ⟨[], []⟩).Answers none
        (limitInForce none ⟨none, none⟩) query (Query.compiled query).text ⟨[], []⟩ := by
  constructor
  · intro h
    have harguments : Invocation.ofArguments ["compile", "cats"] =
        .ok ⟨none, false, .compile "cats" none false⟩ := by cbv
    have hcontent := holds_diskWith bracketBytes
    obtain ⟨code, hcode⟩ := (h _ _ hcontent).exists_exit
    have hbreaks := run_onQuery_of_overflow harguments (.text "cats" none) hcontent ⟨none, none⟩
      ((Option.bind_some _ _).trans overflowOfBytes?_bracketBytes)
    cases hcode.symm.trans hbreaks.1
  · intro h
    have harguments : Invocation.ofArguments ["compile", halfQuery] =
        .ok ⟨none, false, .compile halfQuery none false⟩ := by cbv
    have hcontent : (SettingsFile.ofBase ⟨[], []⟩ none).Holds ⟨[], []⟩ none := .absent (by cbv)
    have hhalf : ¬(line (Query.compiled halfQuery).text).IsEncodable := by
      rw [text_compiled_halfQuery]
      decide
    have haccepted : ¬Query.IsRefused (limitInForce none ⟨none, none⟩) halfQuery := by
      rintro (⟨⟨⟩⟩ | hblank | hlong)
      · exact absurd hblank (by decide)
      · exact absurd hlong (by decide)
    have hnone : ¬∃ n ∈ (none : Option Int), Settings.maxLimit < n := by
      rintro ⟨_, ⟨⟩, -⟩
    obtain ⟨fault, hfault⟩ := exists_encodingFault?_eq_some hhalf
    have hfails := run_onQuery_of_unprintable harguments (.text halfQuery none) hcontent
      ⟨none, none⟩ rfl hnone haccepted hfault
    exact hnone ((h halfQuery harguments).three_iff.1 ⟨hfails.1, hfails.2.1⟩)

end CommandLine

end TsQuery
