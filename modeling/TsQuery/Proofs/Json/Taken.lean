import TsQuery.Json.Read

/-!
# What reading gives

Reading something from the beginning of a text gives a value and leaves the rest of the text
(`Json.Gives`).  What is read is followed by something that is no part of it; for a value that is
written in lines it is a comma, a line break or nothing (`Json.EndsValue`).  Blanks in front of a
value are skipped.
-/

namespace TsQuery

namespace Json

/-- Reading gives a value and leaves a rest. -/
def Gives {α : Type} {text : Text} (result : Except Stop (Taken α text)) (value : α)
    (rest : Text) : Prop :=
  ∃ shorter, result = .ok ⟨value, rest, shorter⟩

namespace Gives

variable {α β : Type} {inner text rest : Text} {value : α}

/-- What is read is the same with a function put behind it and more text in front of it. -/
theorem map_after {result : Except Stop (Taken α inner)} (h : Gives result value rest)
    (f : α → β) (le : inner.length ≤ text.length) :
    Gives (result.map fun taken => (taken.after f le : Taken β text)) (f value) rest := by
  obtain ⟨shorter, rfl⟩ := h
  exact ⟨Nat.lt_of_lt_of_le shorter le, rfl⟩

end Gives

/-- What was read with a function put behind it was read. -/
theorem exists_of_map_after {α β : Type} {inner text : Text} {result : Except Stop (Taken α inner)}
    {f : α → β} {le : inner.length ≤ text.length} {taken : Taken β text}
    (h : (result.map fun taken => taken.after f le) = .ok taken) :
    ∃ first, result = .ok first ∧ taken.value = f first.value := by
  cases result with
  | error stop => cases h
  | ok first =>
    cases h
    exact ⟨first, rfl, rfl⟩

/-- Whether a value that is written in lines can end before a text. -/
def EndsValue (rest : Text) : Prop :=
  ∀ c ∈ rest.head?, c = .char ',' ∨ c = .char '\n'

theorem endsValue_nil : EndsValue [] := nofun

theorem endsValue_comma (rest : Text) : EndsValue (.char ',' :: rest) := by
  intro c hc
  cases hc
  exact Or.inl rfl

theorem endsValue_lineFeed (rest : Text) : EndsValue (.char '\n' :: rest) := by
  intro c hc
  cases hc
  exact Or.inr rfl

/-- The blanks in front of a text are skipped. -/
theorem skip_append {blanks : Text} (h : ∀ c ∈ blanks, isJsonBlank c = true) (text : Text) :
    skip (blanks ++ text) = skip text := by
  induction blanks with
  | nil => rfl
  | cons c blanks ih =>
    obtain ⟨hc, hblanks⟩ := List.forall_mem_cons.1 h
    rw [List.cons_append, skip, List.dropWhile_cons, if_pos hc]
    exact ih hblanks

/-- Nothing is skipped in front of what is no blank. -/
theorem skip_cons {c : CodePoint} (h : isJsonBlank c = false) (text : Text) :
    skip (c :: text) = c :: text := by
  rw [skip, List.dropWhile_cons, if_neg (by rw [h]; decide)]

end Json

end TsQuery
