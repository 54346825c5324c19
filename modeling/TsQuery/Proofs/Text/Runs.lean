import TsQuery.Proofs.Text.Pieces

/-!
# Maximal runs

`Text.HasRuns` says what it is to be the maximal runs of kept characters of a text, in order: each
of them begins where a kept character follows none, and ends where none follows.  Every text has
exactly one such list, `Text.runs` (`Text.hasRuns_iff`).
-/

namespace TsQuery

namespace Text

/-- A text has given maximal runs of kept characters, in order. -/
inductive HasRuns (keep : CodePoint → Bool) : Text → List Text → Prop
  /-- A text without kept characters has no runs. -/
  | nil {gap : Text} (dropped : ∀ c ∈ gap, keep c = false) : HasRuns keep gap []
  /-- A run stands behind characters that are not kept, and ends before one or with the text. -/
  | cons {gap run rest : Text} {runs : List Text} (dropped : ∀ c ∈ gap, keep c = false)
      (nonempty : run ≠ []) (kept : ∀ c ∈ run, keep c = true)
      (ends : ∀ c ∈ rest.head?, keep c = false) (later : HasRuns keep rest runs) :
      HasRuns keep (gap ++ (run ++ rest)) (run :: runs)

variable {keep : CodePoint → Bool}

theorem runs_cons_of_dropped {c : CodePoint} (h : keep c = false) (text : Text) :
    runs keep (c :: text) = runs keep text := by
  change closeRun (consRun keep c (leadingRun keep text)) = runs keep text
  rw [consRun, if_neg (by rw [h]; decide)]
  rfl

/-- Characters that are not kept have no part in the runs behind them. -/
theorem runs_append_of_dropped {gap : Text} (h : ∀ c ∈ gap, keep c = false) (text : Text) :
    runs keep (gap ++ text) = runs keep text := by
  induction gap with
  | nil => rfl
  | cons c gap ih =>
    obtain ⟨hc, hgap⟩ := List.forall_mem_cons.1 h
    rw [List.cons_append, runs_cons_of_dropped hc, ih hgap]

/-- A run that nothing goes on with is the first one. -/
theorem runs_append {run rest : Text} (hne : run ≠ []) (hkept : ∀ c ∈ run, keep c = true)
    (hends : ∀ c ∈ rest.head?, keep c = false) :
    runs keep (run ++ rest) = run :: runs keep rest := by
  cases rest with
  | nil =>
    rw [List.append_nil, runs_of_forall hne hkept]
    rfl
  | cons c rest =>
    have hc : keep c = false := hends c rfl
    rw [runs_append_cons hne hkept hc, runs_cons_of_dropped hc]

theorem HasRuns.eq_runs {text : Text} {found : List Text} (h : HasRuns keep text found) :
    found = runs keep text := by
  induction h with
  | @nil gap dropped =>
    have hgap := runs_append_of_dropped dropped []
    rw [List.append_nil] at hgap
    exact hgap.symm
  | cons dropped nonempty kept ends later ih =>
    rw [runs_append_of_dropped dropped, runs_append nonempty kept ends, ih]

/-- One more character that is not kept changes no run. -/
theorem HasRuns.cons_dropped {c : CodePoint} (hc : keep c = false) {text : Text} {found : List Text}
    (h : HasRuns keep text found) : HasRuns keep (c :: text) found := by
  cases h with
  | nil dropped => exact .nil (List.forall_mem_cons.2 ⟨hc, dropped⟩)
  | @cons gap run rest runs dropped nonempty kept ends later =>
    have hdropped : ∀ d ∈ c :: gap, keep d = false := List.forall_mem_cons.2 ⟨hc, dropped⟩
    exact @HasRuns.cons keep (c :: gap) run rest runs hdropped nonempty kept ends later

/-- A text that begins with a run. -/
theorem HasRuns.cons_run {run rest : Text} {runs : List Text} (nonempty : run ≠ [])
    (kept : ∀ c ∈ run, keep c = true) (ends : ∀ c ∈ rest.head?, keep c = false)
    (later : HasRuns keep rest runs) : HasRuns keep (run ++ rest) (run :: runs) :=
  @HasRuns.cons keep [] run rest runs nofun nonempty kept ends later

/-- One more kept character belongs to the run that the text begins with, or else is one. -/
theorem HasRuns.exists_cons_kept {c : CodePoint} (hc : keep c = true) {text : Text}
    {found : List Text} (h : HasRuns keep text found) :
    ∃ found, HasRuns keep (c :: text) found := by
  have hsingle : ∀ d ∈ [c], keep d = true := List.forall_mem_singleton.2 hc
  cases h with
  | nil dropped =>
    refine ⟨[[c]], .cons_run (List.cons_ne_nil c []) hsingle ?_ (.nil dropped)⟩
    exact fun d hd => dropped d (List.mem_of_mem_head? hd)
  | @cons gap run rest runs dropped nonempty kept ends later =>
    cases gap with
    | nil =>
      refine ⟨(c :: run) :: runs, .cons_run (List.cons_ne_nil c run) ?_ ends later⟩
      exact List.forall_mem_cons.2 ⟨hc, kept⟩
    | cons d gap =>
      refine ⟨[c] :: run :: runs, .cons_run (List.cons_ne_nil c []) hsingle ?_
        (.cons dropped nonempty kept ends later)⟩
      rintro _ ⟨⟩
      exact dropped d List.mem_cons_self

/-- The runs of a text are its only list of maximal runs. -/
theorem hasRuns_iff {text : Text} {found : List Text} :
    HasRuns keep text found ↔ found = runs keep text := by
  have hexists : ∃ found, HasRuns keep text found := by
    induction text with
    | nil => exact ⟨[], .nil nofun⟩
    | cons c text ih =>
      obtain ⟨found, hfound⟩ := ih
      cases hc : keep c with
      | false => exact ⟨found, hfound.cons_dropped hc⟩
      | true => exact hfound.exists_cons_kept hc
  constructor
  · exact HasRuns.eq_runs
  · rintro rfl
    obtain ⟨found, hfound⟩ := hexists
    rwa [← hfound.eq_runs]

end Text

end TsQuery
