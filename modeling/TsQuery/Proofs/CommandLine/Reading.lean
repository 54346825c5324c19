import Mathlib
import TsQuery.Proofs.CommandLine.Arguments

/-!
# Reading arguments

An argument that does not begin with a dash is an operand of every command
(`CommandLine.OptionTable.kindOf_of_not_dash`), and what a command line asks for is what its command
reads (`CommandLine.ofArguments_cons`).  So a value for the limit is read as it stands, or it is a
problem, and the latter only if it begins with a dash (`CommandLine.ofArguments_setLine`).  A limit
of a query is read before anything that follows: the numeral of a positive integer is read as it
stands, any other text is a problem whatever follows (`CommandLine.ofArguments_limitLine`,
`CommandLine.isProblem_limitLine`).
-/

namespace TsQuery

/-- Whether a text begins with a dash. -/
def Text.BeginsWithDash (text : Text) : Prop :=
  text.head? = some '-'

instance (text : Text) : Decidable text.BeginsWithDash :=
  inferInstanceAs (Decidable (_ = _))

/-! ### Numerals with a dash -/

/-- A text that begins with a dash does so without the blanks behind it. -/
theorem Numeral.exists_trimmed (rest : Text) :
    ∃ unsigned, (((.char '-' :: rest).dropWhile isPadding).reverse.dropWhile isPadding).reverse =
      .char '-' :: unsigned := by
  have hdash : isPadding '-' = false := by decide
  have hfront : (.char '-' :: rest).dropWhile isPadding = .char '-' :: rest := by
    rw [List.dropWhile_cons, hdash]
    rfl
  rw [hfront, List.reverse_cons, List.dropWhile_append]
  split
  · exact ⟨[], by rw [List.dropWhile_cons, hdash]; rfl⟩
  · exact ⟨_, List.reverse_append⟩

/-- A numeral that begins with a dash denotes no positive integer. -/
theorem Numeral.read?_nonpos {text : Text} {n : Int} (hdash : text.BeginsWithDash)
    (h : read? text = some n) : n ≤ 0 := by
  obtain ⟨rest, rfl⟩ : ∃ rest, text = .char '-' :: rest := by
    cases text with
    | nil => cases hdash
    | cons c rest => exact ⟨rest, congrArg (· :: rest) (Option.some.inj hdash)⟩
  obtain ⟨unsigned, htrimmed⟩ := exists_trimmed (rest.map toAscii)
  have hfirst : toAscii '-' = '-' := by decide
  unfold read? readAscii? at h
  rw [List.map_cons, hfirst] at h
  dsimp only at h
  rw [htrimmed] at h
  obtain ⟨m, -, rfl⟩ := Option.map_eq_some_iff.1 h
  exact Int.neg_nonpos_of_nonneg (Int.natCast_nonneg m)

namespace CommandLine

/-! ### Pieces -/

namespace OptionTable

variable {α : Type} {table : OptionTable α} {argument : Text} {arguments : List Text}
  {found : List (Piece α)}

theorem ne_separator_of_not_dash (h : ¬argument.BeginsWithDash) : argument ≠ separatorText := by
  rintro rfl
  exact h rfl

/-- An argument that does not begin with a dash is an operand. -/
theorem kindOf_of_not_dash (h : ¬argument.BeginsWithDash) :
    table.kindOf argument = .ok .operand := by
  unfold kindOf
  split
  · exact absurd rfl h
  · rfl

/-- An argument before others that is not the separator. -/
theorem pieces_cons {kind : PieceKind α} (hne : argument ≠ separatorText)
    (hkind : table.kindOf argument = .ok kind) :
    table.pieces (argument :: arguments) =
      (table.pieces arguments).map (⟨argument, kind⟩ :: ·) := by
  rw [pieces, if_neg hne, hkind]

/-- An operand that does not begin with a dash before other arguments. -/
theorem pieces_cons_of_not_dash (h : ¬argument.BeginsWithDash) :
    table.pieces (argument :: arguments) =
      (table.pieces arguments).map (⟨argument, .operand⟩ :: ·) :=
  pieces_cons (ne_separator_of_not_dash h) (kindOf_of_not_dash h)

/-- Arguments are pieces of which the first is the first argument, or a problem. -/
theorem pieces_cons_cases (table : OptionTable α) (argument : Text) (arguments : List Text) :
    (∃ problem, table.pieces (argument :: arguments) = .error problem) ∨
      ∃ kind found, table.pieces (argument :: arguments) = .ok (⟨argument, kind⟩ :: found) := by
  rw [pieces]
  split
  · exact .inr ⟨.separator, _, rfl⟩
  · cases table.kindOf argument with
    | error problem => exact .inl ⟨problem, rfl⟩
    | ok kind =>
      cases table.pieces arguments with
      | error problem => exact .inl ⟨problem, rfl⟩
      | ok found => exact .inr ⟨kind, found, rfl⟩

/-- The pieces of a command line are its arguments. -/
theorem map_text_of_pieces (h : table.pieces arguments = .ok found) :
    found.map Piece.text = arguments := by
  induction arguments generalizing found with
  | nil =>
    cases h
    rfl
  | cons argument arguments ih =>
    rw [pieces] at h
    split at h
    · cases h
      rw [List.map_cons, List.map_map]
      exact congrArg (argument :: ·) (List.map_id arguments)
    · split at h
      · cases h
      · obtain ⟨rest, hrest, rfl⟩ := exists_of_map_eq_ok h
        rw [List.map_cons, ih hrest]

end OptionTable

/-! ### Commands -/

/-- Whether a command line is not run because of a problem. -/
def IsProblem (arguments : List Text) : Prop :=
  ∃ page cause, Invocation.ofArguments arguments = .error (.problem page cause)

variable {name : Text} {following : List Text}

/-- What a command line asks for is what its command reads, if the program takes its arguments
apart. -/
theorem ofArguments_cons {found : List (Piece MainOption)} (hname : ¬name.BeginsWithDash)
    (hpieces : MainOption.table.pieces following = .ok found) :
    Invocation.ofArguments (name :: following) =
      match readCommand name following with
      | .error stop => .error stop
      | .ok (command, extras) =>
        if !extras.isEmpty then .error (.problem .main (.unrecognized extras))
        else .ok ⟨none, false, command⟩ := by
  have hevents : MainOption.table.events .command none (⟨name, .operand⟩ :: found) =
      [.operand name following] := by
    rw [OptionTable.events, OptionTable.map_text_of_pieces hpieces]
  unfold Invocation.ofArguments readArguments
  rw [OptionTable.pieces_cons_of_not_dash hname, hpieces, Except.map]
  dsimp only
  rw [hevents, List.foldlM_cons, MainArguments.read]
  cases readCommand name following with
  | error stop => rfl
  | ok read => rfl

/-- A command line whose arguments the program cannot take apart is a problem. -/
theorem isProblem_of_pieces {problem : UsageProblem} (hname : ¬name.BeginsWithDash)
    (hpieces : MainOption.table.pieces following = .error problem) :
    IsProblem (name :: following) := by
  refine ⟨.main, problem, ?_⟩
  unfold Invocation.ofArguments readArguments
  rw [OptionTable.pieces_cons_of_not_dash hname, hpieces]
  rfl

/-- A command line is a problem if its command reads a problem. -/
theorem isProblem_of_readCommand {page : Page} {cause : UsageProblem} (hname : ¬name.BeginsWithDash)
    (h : readCommand name following = .error (.problem page cause)) :
    IsProblem (name :: following) := by
  cases hpieces : MainOption.table.pieces following with
  | error problem => exact isProblem_of_pieces hname hpieces
  | ok found =>
    refine ⟨page, cause, ?_⟩
    rw [ofArguments_cons hname hpieces, h]

/-! ### Setting the limit -/

/-- The command line that stores the value of a text as the limit. -/
def setLine (value : Text) : List Text :=
  ["config", "--set", Settings.limitKey, value]

variable {value : Text}

/-- The pieces of the arguments that set the limit. -/
theorem pieces_set (value : Text) :
    ConfigOption.table.pieces ["--set", Settings.limitKey, value] =
      (ConfigOption.table.pieces [value]).map fun found =>
        ⟨"--set", .option .set "--set" none⟩ :: ⟨Settings.limitKey, .operand⟩ :: found := by
  have hset : ConfigOption.table.kindOf "--set" = .ok (.option .set "--set" none) := by cbv
  rw [OptionTable.pieces_cons (by decide) hset, OptionTable.pieces_cons_of_not_dash (by decide)]
  cases ConfigOption.table.pieces [value] <;> rfl

/-- Reading the arguments that set the limit, given what the value is. -/
theorem readCommand_set (value : Text) :
    readCommand "config" ["--set", Settings.limitKey, value] =
      match ConfigOption.table.pieces [value] with
      | .error problem => .error (.problem .config problem)
      | .ok [⟨_, .operand⟩] => .ok (.config (.set Settings.limitKey value), [])
      | .ok _ => .error (.problem .config (ConfigOption.table.missingValues .set)) := by
  rw [readCommand, if_neg (by decide), if_neg (by decide), if_pos rfl]
  dsimp only [readArguments]
  rw [pieces_set]
  rcases OptionTable.pieces_cons_cases ConfigOption.table value [] with
    ⟨problem, hproblem⟩ | ⟨kind, found, hfound⟩
  · rw [hproblem]
    rfl
  · have htexts := OptionTable.map_text_of_pieces hfound
    obtain rfl : found = [] := List.map_eq_nil_iff.1 (List.cons.inj htexts).2
    rw [hfound]
    cases kind <;> rfl

/-- A command line that sets the limit is read as it stands, or it is a problem. -/
theorem ofArguments_setLine (value : Text) :
    IsProblem (setLine value) ∨
      Invocation.ofArguments (setLine value) =
        .ok ⟨none, false, .config (.set Settings.limitKey value)⟩ := by
  have hname : ¬Text.BeginsWithDash "config" := by decide
  have hread := readCommand_set value
  split at hread
  · exact .inl (isProblem_of_readCommand hname hread)
  · cases hpieces : MainOption.table.pieces ["--set", Settings.limitKey, value] with
    | error problem => exact .inl (isProblem_of_pieces hname hpieces)
    | ok found =>
      refine .inr ?_
      rw [setLine, ofArguments_cons hname hpieces, hread]
      rfl
  · exact .inl (isProblem_of_readCommand hname hread)

/-- A value that does not begin with a dash is read as it stands. -/
theorem ofArguments_setLine_of_not_dash (hvalue : ¬value.BeginsWithDash) :
    Invocation.ofArguments (setLine value) =
      .ok ⟨none, false, .config (.set Settings.limitKey value)⟩ := by
  have hset : MainOption.table.kindOf "--set" = .ok .unknown := by cbv
  have hpieces : MainOption.table.pieces ["--set", Settings.limitKey, value] =
      .ok [⟨"--set", .unknown⟩, ⟨Settings.limitKey, .operand⟩, ⟨value, .operand⟩] := by
    rw [OptionTable.pieces_cons (by decide) hset, OptionTable.pieces_cons_of_not_dash (by decide),
      OptionTable.pieces_cons_of_not_dash hvalue]
    rfl
  have hoperand : ConfigOption.table.pieces [value] = .ok [⟨value, .operand⟩] :=
    OptionTable.pieces_cons_of_not_dash hvalue
  rw [setLine, ofArguments_cons (by decide) hpieces, readCommand_set, hoperand]
  rfl

/-! ### Limits of a query -/

/-- How a query is given to a command: by itself if it does not begin with a dash, or in any case
behind the separator. -/
inductive GivesQuery (query : Text) : List Text → Prop
  | plain (h : ¬query.BeginsWithDash) : GivesQuery query [query]
  | separated : GivesQuery query [separatorText, query]

/-- The command line that compiles what is given with the limit of a text. -/
def limitLine (limit : Text) (given : List Text) : List Text :=
  "compile" :: "--max-length" :: limit :: given

variable {limit query : Text} {given : List Text}

/-- Reading the arguments of the command that compiles. -/
theorem readCommand_compile (arguments : List Text) :
    readCommand "compile" arguments =
      (readQuery .compile arguments).map fun read =>
        (.compile read.1 read.2.limit? read.2.json, read.2.extras) := by
  rw [readCommand, if_pos rfl]

/-- The pieces of the arguments that give a limit and a query. -/
theorem pieces_maxLength (limit : Text) (given : List Text) :
    (QueryOption.table true).pieces ("--max-length" :: limit :: given) =
      ((QueryOption.table true).pieces (limit :: given)).map fun found =>
        ⟨"--max-length", .option .maxLength "--max-length" none⟩ :: found := by
  have hoption : (QueryOption.table true).kindOf "--max-length" =
      .ok (.option .maxLength "--max-length" none) := by cbv
  exact OptionTable.pieces_cons (by decide) hoption

/-- A text that is no limit of a query is a problem, whatever follows. -/
theorem exists_readQuery_eq_error {fault : LimitFault} (h : readLimit limit = .error fault)
    (given : List Text) :
    ∃ cause, readQuery .compile ("--max-length" :: limit :: given) =
      .error (.problem .compile cause) := by
  have htable : QueryOption.table (decide (Page.compile = Page.compile)) = QueryOption.table true :=
    rfl
  unfold readQuery readArguments
  dsimp only
  rw [htable, pieces_maxLength]
  rcases OptionTable.pieces_cons_cases (QueryOption.table true) limit given with
    ⟨problem, hproblem⟩ | ⟨kind, found, hfound⟩
  · rw [hproblem]
    exact ⟨problem, rfl⟩
  · rw [hfound, Except.map]
    dsimp only
    cases kind with
    | operand =>
      have hevents : (QueryOption.table true).events .operand none
          (⟨"--max-length", .option .maxLength "--max-length" none⟩ :: ⟨limit, .operand⟩ :: found) =
            .option .maxLength [limit] :: (QueryOption.table true).events .operand none found := rfl
      have hlimit : QueryArguments.read .compile ⟨none, none, false, []⟩
          (.option .maxLength [limit]) =
            .error (.problem .compile (.invalidLimit "--max-length" fault)) := by
        rw [QueryArguments.read, h]
      rw [hevents, List.foldlM_cons, hlimit]
      exact ⟨_, rfl⟩
    | separator => exact ⟨_, rfl⟩
    | unknown => exact ⟨_, rfl⟩
    | option option spelling value? => exact ⟨_, rfl⟩

/-- A command line with a text that is no limit of a query is a problem, whatever follows. -/
theorem isProblem_limitLine {fault : LimitFault} (h : readLimit limit = .error fault)
    (given : List Text) : IsProblem (limitLine limit given) := by
  obtain ⟨cause, hquery⟩ := exists_readQuery_eq_error h given
  have hread : readCommand "compile" ("--max-length" :: limit :: given) =
      .error (.problem .compile cause) := by
    rw [readCommand_compile, hquery]
    rfl
  exact isProblem_of_readCommand (by decide) hread

/-- A text that is a limit of a query does not begin with a dash. -/
theorem not_dash_of_readLimit {n : Int} (h : readLimit limit = .ok n) : ¬limit.BeginsWithDash := by
  intro hdash
  unfold readLimit at h
  split at h
  · cases h
  · next m hread =>
    have hnonpos := Numeral.read?_nonpos hdash hread
    rw [if_pos hnonpos] at h
    cases h

/-- The query that is given is read as it stands, behind the separator or without it. -/
theorem GivesQuery.exists_pieces {α : Type} (h : GivesQuery query given) (table : OptionTable α) :
    ∃ before, table.pieces given = .ok (before ++ [⟨query, .operand⟩]) ∧
      (before = [] ∨ before = [⟨separatorText, .separator⟩]) := by
  cases h with
  | plain hplain => exact ⟨[], OptionTable.pieces_cons_of_not_dash hplain, .inl rfl⟩
  | separated => exact ⟨[⟨separatorText, .separator⟩], rfl, .inr rfl⟩

/-- A limit is read as a positive integer, and the query that is given with it as it stands. -/
theorem ofArguments_limitLine {n : Int} (h : readLimit limit = .ok n)
    (hgiven : GivesQuery query given) :
    Invocation.ofArguments (limitLine limit given) =
      .ok ⟨none, false, .compile query (some n) false⟩ := by
  have hlimit := not_dash_of_readLimit h
  have hoption : MainOption.table.kindOf "--max-length" = .ok .unknown := by cbv
  obtain ⟨main, hmain, -⟩ := hgiven.exists_pieces MainOption.table
  have hpieces : MainOption.table.pieces ("--max-length" :: limit :: given) =
      .ok (⟨"--max-length", .unknown⟩ :: ⟨limit, .operand⟩ :: (main ++ [⟨query, .operand⟩])) := by
    rw [OptionTable.pieces_cons (by decide) hoption, OptionTable.pieces_cons_of_not_dash hlimit,
      hmain]
    rfl
  have hquery : readQuery .compile ("--max-length" :: limit :: given) =
      .ok (query, ⟨some query, some n, false, []⟩) := by
    obtain ⟨before, hfound, hbefore⟩ := hgiven.exists_pieces (QueryOption.table true)
    have htable :
        QueryOption.table (decide (Page.compile = Page.compile)) = QueryOption.table true :=
      rfl
    have hread : QueryArguments.read .compile ⟨none, none, false, []⟩ (.option .maxLength [limit]) =
        .ok ⟨none, some n, false, []⟩ := by
      rw [QueryArguments.read, h]
    have hevents : (QueryOption.table true).events .operand none
        (⟨"--max-length", .option .maxLength "--max-length" none⟩ :: ⟨limit, .operand⟩ ::
          (before ++ [⟨query, .operand⟩])) = [.option .maxLength [limit], .operand query []] := by
      rcases hbefore with rfl | rfl <;> rfl
    unfold readQuery readArguments
    dsimp only
    rw [htable, pieces_maxLength, OptionTable.pieces_cons_of_not_dash hlimit, hfound]
    dsimp only [Except.map]
    rw [hevents, List.foldlM_cons, hread]
    rfl
  rw [limitLine, ofArguments_cons (by decide) hpieces, readCommand_compile, hquery]
  rfl

end CommandLine

end TsQuery
