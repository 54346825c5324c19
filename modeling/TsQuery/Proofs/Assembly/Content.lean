import TsQuery.Proofs.Assembly.Step

/-!
# What of a token matters

The tree of a sequence of tokens depends on their kinds and on the words that they contribute, which
is the `Token.content`.  Where a token was read from, and how an operator was spelled, is kept on
record for stray parentheses and is of no account to anything else (`Tree.ofTokens?_congr`).
-/

namespace TsQuery

/-- What of a token matters to a query: its kind and its words. -/
def Token.content (token : Token) : TokenKind × List Text :=
  (token.kind, token.words)

namespace Assembly

/-- A state with no stray parentheses on record. -/
def withoutStrays (state : Assembly) : Assembly :=
  { state with strays := [] }

theorem tree?_withoutStrays (state : Assembly) : state.withoutStrays.tree? = state.tree? := rfl

/-- Tokens with the same content are read alike, apart from the record of stray parentheses. -/
theorem withoutStrays_read_congr {left right : Assembly} {first second : Token}
    (hstate : left.withoutStrays = right.withoutStrays)
    (hcontent : first.content = second.content) :
    (left.read first).withoutStrays = (right.read second).withoutStrays := by
  obtain ⟨kind, text, position⟩ := first
  obtain ⟨kind', text', position'⟩ := second
  obtain ⟨ended, group, enclosing, strays⟩ := left
  obtain ⟨ended', group', enclosing', strays'⟩ := right
  obtain ⟨rfl, hwords⟩ : kind = kind' ∧ _ := Prod.mk.inj hcontent
  obtain ⟨rfl, rfl, rfl, -⟩ := Assembly.mk.inj hstate
  cases kind with
  | word =>
    obtain rfl : text = text' := List.singleton_inj.1 hwords
    rfl
  | opening =>
    rcases Nat.lt_or_ge enclosing.length maxDepth with hroom | hfull
    · rw [read_of_opening _ rfl hroom, read_of_opening _ rfl hroom]
      rfl
    · rw [read_of_opening_of_full _ rfl hfull, read_of_opening_of_full _ rfl hfull]
      rfl
  | closing =>
    cases enclosing with
    | nil => rfl
    | cons outer rest => rfl
  | _ => rfl

/-- Sequences of tokens with the same contents are read alike. -/
theorem withoutStrays_foldl_read_congr {left right : Assembly} {first second : List Token}
    (hstate : left.withoutStrays = right.withoutStrays)
    (hcontent : first.map Token.content = second.map Token.content) :
    (first.foldl read left).withoutStrays = (second.foldl read right).withoutStrays := by
  induction first generalizing left right second with
  | nil =>
    obtain rfl : second = [] := List.map_eq_nil_iff.1 hcontent.symm
    exact hstate
  | cons token tokens ih =>
    cases second with
    | nil => cases hcontent
    | cons token' tokens' =>
      obtain ⟨htoken, htokens⟩ := List.cons.inj hcontent
      rw [List.foldl_cons, List.foldl_cons]
      exact ih (withoutStrays_read_congr hstate htoken) htokens

end Assembly

namespace Tree

/-- The tree of tokens depends on their contents only. -/
theorem ofTokens?_congr {left right : List Token}
    (h : left.map Token.content = right.map Token.content) : ofTokens? left = ofTokens? right := by
  have hstates : (Assembly.ofTokens left).withoutStrays = (Assembly.ofTokens right).withoutStrays :=
    Assembly.withoutStrays_foldl_read_congr rfl h
  rw [ofTokens?, ← Assembly.tree?_withoutStrays, hstates, Assembly.tree?_withoutStrays, ofTokens?]

end Tree

end TsQuery
