import Mathlib
import TsQuery.Proofs.Scan.Vocabulary

/-!
# Polarity of the vocabulary

The vocabulary is marked by a scan of the tokens that keeps one flag, and the tree is built by
reading the same tokens into groups.  As long as no negation sign stands right before an opening
parenthesis, the flag is the negation that is pending in the group being read and no group around it
has one (`Assembly.read_keepsStep`), however malformed the tokens are.  Then a word is excluded
exactly if a leaf with it lies under an odd number of negations of the tree, and included exactly if
one lies under an even number.
-/

namespace TsQuery

/-! ### Groups without a negation sign -/

/-- No negation sign stands right before an opening parenthesis. -/
def Token.NoNegatedGroup (tokens : List Token) : Prop :=
  tokens.IsChain fun token next => token.kind = .not → next.kind ≠ .opening

instance (tokens : List Token) : Decidable (Token.NoNegatedGroup tokens) :=
  inferInstanceAs (Decidable (tokens.IsChain _))

namespace Assembly

/-- The scan for the vocabulary keeps step with the state: no group around the one being read has a
pending negation, and a given flag is that of the group being read. -/
structure KeepsStep (state : Assembly) (negated : Bool) : Prop where
  enclosing : pendingNegations state.enclosing = 0
  group : state.group.negated = negated

namespace KeepsStep

variable {state : Assembly} {negated : Bool}

/-- The scan marks a word with the negations that are pending. -/
theorem pending (h : state.KeepsStep negated) : state.pending = negated.toNat := by
  rw [Assembly.pending, pendingNegations_cons, h.enclosing, h.group, Nat.zero_add]

/-- Reading a token keeps step, unless it opens a group with a negation pending. -/
theorem read (h : state.KeepsStep negated) {token : Token}
    (hopening : token.kind = .opening → negated = false) :
    (state.read token).KeepsStep (Vocabulary.pendingAfter negated token) := by
  unfold Vocabulary.pendingAfter
  cases hkind : token.kind with
  | word =>
    rw [read_of_word state hkind]
    exact ⟨h.enclosing, Group.negated_add _ _⟩
  | phrase words =>
    rw [read_of_phrase state hkind]
    exact ⟨h.enclosing, Group.negated_add _ _⟩
  | and =>
    rw [read_of_and state hkind]
    exact ⟨h.enclosing, Group.negated_add _ _⟩
  | or =>
    rw [read_of_or state hkind]
    exact ⟨h.enclosing, Group.negated_endDisjunct _⟩
  | not =>
    rw [read_of_not state hkind]
    refine ⟨h.enclosing, ?_⟩
    rw [group_withGroup, Group.negated_flip, h.group]
  | opening =>
    have hnegated : negated = false := hopening hkind
    rcases Nat.lt_or_ge state.enclosing.length maxDepth with hroom | hfull
    · rw [read_of_opening state hkind hroom]
      have henclosing : pendingNegations (state.group :: state.enclosing) = 0 := by
        rw [pendingNegations_cons, h.enclosing, h.group, hnegated]
        rfl
      exact ⟨henclosing, hnegated.symm⟩
    · rw [read_of_opening_of_full state hkind hfull]
      refine ⟨h.enclosing, ?_⟩
      rw [group_withGroup, Group.negated_add, hnegated]
  | closing =>
    cases henclosing : state.enclosing with
    | nil =>
      rw [read_of_stray state hkind henclosing]
      exact ⟨h.enclosing, rfl⟩
    | cons outer rest =>
      rw [read_of_closing state hkind henclosing]
      have hrest : pendingNegations rest = 0 := by
        have hall := h.enclosing
        rw [henclosing, pendingNegations_cons] at hall
        exact Nat.eq_zero_of_add_eq_zero_right hall
      exact ⟨hrest, Group.negated_add _ _⟩

/-- What the scan marks is the words of the leaves that are read, with whether an odd number of
negations is pending. -/
theorem marks_eq {tokens : List Token} (h : state.KeepsStep negated)
    (hgroups : Token.NoNegatedGroup tokens)
    (hhead : ∀ token ∈ tokens.head?, token.kind = .opening → negated = false) :
    Vocabulary.marks negated tokens =
      (state.readLeaves tokens).flatMap fun placed =>
        (Vocabulary.operandWords placed.2.leafWords).map (decide (Odd placed.1), ·) := by
  induction tokens generalizing state negated with
  | nil => rfl
  | cons token tokens ih =>
    have hopening : token.kind = .opening → negated = false := hhead token rfl
    have hnext : ∀ next ∈ tokens.head?, next.kind = .opening →
        Vocabulary.pendingAfter negated token = false := by
      intro next hmem hkind
      obtain ⟨rest, rfl⟩ : ∃ rest, tokens = next :: rest := List.head?_eq_some_iff.1 hmem
      have hnot : token.kind ≠ .not := fun heq =>
        (List.isChain_cons_cons.1 hgroups).1 heq hkind
      unfold Vocabulary.pendingAfter
      split
      · next heq => exact absurd heq hnot
      · next heq => exact hopening heq
      · rfl
    have hodd : decide (Odd negated.toNat) = negated := by
      cases negated with
      | false => decide
      | true => decide
    have hword : (Vocabulary.operandWords token.words).map (negated, ·) =
        (token.leaf?.toList.map (state.pending, ·)).flatMap fun placed =>
          (Vocabulary.operandWords placed.2.leafWords).map (decide (Odd placed.1), ·) := by
      rw [h.pending]
      cases hleaf : token.leaf? with
      | none =>
        rw [Token.words_of_leaf?_eq_none hleaf]
        rfl
      | some leaf =>
        rw [Option.toList_some, List.map_singleton, List.flatMap_singleton, hodd,
          Token.leafWords_of_leaf? hleaf]
    rw [Vocabulary.marks_cons, readLeaves, List.flatMap_append, hword,
      ih (h.read hopening) hgroups.tail hnext]

end KeepsStep

end Assembly

/-! ### Queries -/

namespace Query

/-- A word is marked one way or the other exactly if a leaf has it under an odd or even number of
negations. -/
theorem mem_marks_iff_odd {text : Text} (h : Token.NoNegatedGroup (tokens text)) {mark : Bool}
    {word : Text} :
    (mark, word) ∈ Vocabulary.marks false (tokens text) ↔
      ∃ placed ∈ Tree.placedLeavesOption 0 (tree? text),
        decide (Odd placed.1) = mark ∧ word ∈ placed.2.searchWords := by
  have hstart : ({} : Assembly).KeepsStep false := ⟨rfl, rfl⟩
  have hleaves := Tree.placedLeavesOption_ofTokens? (tokens text)
  rw [hstart.marks_eq h fun _ _ _ => rfl, ← hleaves, ← tree?, List.mem_flatMap]
  refine exists_congr fun placed => and_congr_right fun hplaced => ?_
  have hleaf : placed.2 ∈ Tree.leavesOption (tree? text) := by
    rw [← Tree.map_snd_placedLeavesOption 0]
    exact List.mem_map_of_mem hplaced
  rw [operandWords_leafWords hleaf, List.mem_map]
  constructor
  · rintro ⟨found, hfound, heq⟩
    obtain ⟨rfl, rfl⟩ := Prod.mk.inj heq
    exact ⟨rfl, hfound⟩
  · rintro ⟨rfl, hfound⟩
    exact ⟨word, hfound, rfl⟩

/-- In a text without a negation sign right before an opening parenthesis, however malformed it is,
the excluded words are those of the leaves under an odd number of negations, and the included ones
those of the leaves under an even number, terms that spell an operator left out. -/
theorem vocabulary_polarity {text : Text} (h : Token.NoNegatedGroup (tokens text)) (word : Text) :
    (word ∈ (Vocabulary.ofText text).excluded ↔
      ∃ placed ∈ Tree.placedLeavesOption 0 (tree? text),
        Odd placed.1 ∧ word ∈ placed.2.searchWords) ∧
    (word ∈ (Vocabulary.ofText text).included ↔
      ∃ placed ∈ Tree.placedLeavesOption 0 (tree? text),
        Even placed.1 ∧ word ∈ placed.2.searchWords) := by
  rw [Vocabulary.ofText, Vocabulary.ofTokens, Vocabulary.mem_marked_iff, Vocabulary.mem_marked_iff,
    mem_marks_iff_odd h, mem_marks_iff_odd h]
  simp only [decide_eq_true_eq, decide_eq_false_iff_not, Nat.not_odd_iff_even, and_self]

set_option maxRecDepth 4000 in
/-- A parenthesis closes no group here, another one is not closed, one sign has no operand and one
phrase spells an operator. -/
theorem vocabulary_polarity_of_stray :
    Token.NoNegatedGroup (tokens ") !a ((b ! \"c not\" | ! & \"and\") !!D") ∧
      ∀ word : Text,
        (word ∈ (Vocabulary.ofText ") !a ((b ! \"c not\" | ! & \"and\") !!D").excluded ↔
          word = "a" ∨ word = "c" ∨ word = "not") ∧
        (word ∈ (Vocabulary.ofText ") !a ((b ! \"c not\" | ! & \"and\") !!D").included ↔
          word = "b" ∨ word = "d") := by
  have hgroups : Token.NoNegatedGroup (tokens ") !a ((b ! \"c not\" | ! & \"and\") !!D") := by
    cbv
    decide
  have hplaced : Tree.placedLeavesOption 0 (tree? ") !a ((b ! \"c not\" | ! & \"and\") !!D") =
      [(1, .term "a"), (0, .term "b"), (1, .phrase ["c", "not"]), (0, .term "and"),
        (0, .term "D")] := by
    cbv
  have hwords : (Tree.term "a").searchWords = ["a"] ∧ (Tree.term "b").searchWords = ["b"] ∧
      (Tree.phrase ["c", "not"]).searchWords = ["c", "not"] ∧ (Tree.term "and").searchWords = [] ∧
      (Tree.term "D").searchWords = ["d"] := by
    decide +kernel
  refine ⟨hgroups, fun word => ?_⟩
  have hpolarity := vocabulary_polarity hgroups word
  rw [hplaced] at hpolarity
  simpa [hwords] using hpolarity

end Query

end TsQuery
