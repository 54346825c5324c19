import TsQuery.Proofs.Assembly.Invariant
import TsQuery.Proofs.Assembly.Polarity

/-!
# Every operand is a leaf, in order

Reading a token appends the leaf that the token stands for, if any, and moves no other: a closing
parenthesis, a disjunction sign and the end of the input only join trees, and whatever is forgotten
on the way is a sign.  Hence the leaves of the tree are the leaves of the tokens, each once and in
their order, whatever the negations do.

As phrases come from tokens only, none has a single word, and the canonical form that every step
keeps is one of the leaves as well (`Tree.ofTokens?_canonical`).
-/

namespace TsQuery

/-- Without the pending negations, what is read of a sequence of tokens is their leaves. -/
theorem Assembly.map_snd_readLeaves (tokens : List Token) (state : Assembly) :
    (state.readLeaves tokens).map Prod.snd = tokens.filterMap Token.leaf? := by
  induction tokens generalizing state with
  | nil => rfl
  | cons token tokens ih =>
    rw [readLeaves, List.map_append, ih]
    cases hleaf : token.leaf? with
    | none => rw [List.filterMap_cons_none hleaf, Option.toList_none, List.map_nil, List.map_nil,
        List.nil_append]
    | some leaf => rw [List.filterMap_cons_some hleaf]; rfl

namespace Tree

/-- The leaves of the tree are those that the tokens stand for. -/
theorem leavesOption_ofTokens? (tokens : List Token) :
    leavesOption (ofTokens? tokens) = tokens.filterMap Token.leaf? := by
  rw [← map_snd_placedLeavesOption 0, placedLeavesOption_ofTokens?, Assembly.map_snd_readLeaves]

/-- A leaf of the tree is a term or a phrase of two or more words. -/
theorem leaf_cases {tokens : List Token} {leaf : Tree}
    (h : leaf ∈ leavesOption (ofTokens? tokens)) :
    (∃ word, leaf = term word) ∨ ∃ words, leaf = phrase words ∧ 2 ≤ words.length := by
  rw [leavesOption_ofTokens?] at h
  obtain ⟨token, -, hleaf⟩ := List.mem_filterMap.1 h
  exact Token.leaf?_eq_some hleaf

/-- A phrase among the leaves of the tree has two or more words. -/
theorem two_le_of_phrase_mem {tokens : List Token} {words : List Text}
    (h : phrase words ∈ leavesOption (ofTokens? tokens)) : 2 ≤ words.length := by
  rcases leaf_cases h with ⟨word, hterm⟩ | ⟨words', hphrase, htwo⟩
  · cases hterm
  · cases hphrase
    exact htwo

/-- Having a leaf is inherited: no operand is ever joined to nothing. -/
theorem isInherited_leaves_ne_nil : IsInherited fun tree => tree.leaves ≠ [] where
  not tree h := by rwa [leaves_not]
  combine c trees hne h := by
    rw [c.leaves_combine]
    obtain ⟨tree, htree⟩ := List.exists_mem_of_ne_nil trees hne
    exact fun hnil => h tree htree (List.flatMap_eq_nil_iff.1 hnil tree htree)

/-- The tree of a sequence of tokens has a leaf. -/
theorem leaves_ne_nil_of_mem_ofTokens? {tokens : List Token} :
    ∀ tree ∈ ofTokens? tokens, tree.leaves ≠ [] := by
  refine forall_ofTokens? isInherited_leaves_ne_nil fun token _ leaf hleaf => ?_
  rcases Token.leaf?_eq_some hleaf with ⟨word, rfl⟩ | ⟨words, rfl, -⟩
  · rw [leaves_term]
    exact List.cons_ne_nil _ _
  · rw [leaves_phrase]
    exact List.cons_ne_nil _ _

/-- There is no tree exactly if no token stands for a leaf. -/
theorem ofTokens?_eq_none_iff (tokens : List Token) :
    ofTokens? tokens = none ↔ tokens.filterMap Token.leaf? = [] := by
  rw [← leavesOption_ofTokens?]
  cases htree : ofTokens? tokens with
  | none => exact iff_of_true rfl rfl
  | some tree =>
    exact iff_of_false (Option.some_ne_none tree) (leaves_ne_nil_of_mem_ofTokens? tree htree)

/-- However malformed a sequence of tokens is, the leaves of its tree are what its words and phrases
stand for, each once and in their order, and it has no tree exactly if no token is a word or a
phrase with words. -/
theorem ofTokens?_keeps_operands (tokens : List Token) :
    leavesOption (ofTokens? tokens) = tokens.filterMap Token.leaf? ∧
      (ofTokens? tokens = none ↔
        ¬∃ token ∈ tokens,
          token.kind = .word ∨ ∃ words, words ≠ [] ∧ token.kind = .phrase words) := by
  refine ⟨leavesOption_ofTokens? tokens, ?_⟩
  rw [ofTokens?_eq_none_iff, List.filterMap_eq_nil_iff]
  simp only [Token.leaf?_eq_none_iff, not_exists, not_and]

/-- However malformed a sequence of tokens is, each conjunction and each disjunction of its tree
joins two or more operands and none of its own kind, and each phrase has two or more words. -/
theorem ofTokens?_canonical {tokens : List Token} :
    ∀ tree ∈ ofTokens? tokens,
      tree.IsCanonical ∧ ∀ words, phrase words ∈ tree.leaves → 2 ≤ words.length := by
  intro tree htree
  refine ⟨isCanonical_of_mem_ofTokens? tree htree, fun words hwords => ?_⟩
  have hleaf : phrase words ∈ leavesOption (ofTokens? tokens) := by
    rw [Option.mem_def.1 htree]
    exact hwords
  exact two_le_of_phrase_mem hleaf

/-- The tokens of `a | (b | (c (d "e"))) ) !(f | (g | "h i"`, with groups of both kinds inside their
own kind, a phrase of one word, a stray parenthesis and groups that stay open. -/
theorem ofTokens?_canonical_of_spliced_groups :
    ofTokens? [⟨.word, "a", 0⟩, ⟨.or, "|", 2⟩, ⟨.opening, "(", 4⟩, ⟨.word, "b", 5⟩, ⟨.or, "|", 7⟩,
        ⟨.opening, "(", 9⟩, ⟨.word, "c", 10⟩, ⟨.opening, "(", 12⟩, ⟨.word, "d", 13⟩,
        ⟨.phrase ["e"], "\"e\"", 15⟩, ⟨.closing, ")", 18⟩, ⟨.closing, ")", 19⟩,
        ⟨.closing, ")", 20⟩, ⟨.closing, ")", 22⟩, ⟨.not, "!", 24⟩, ⟨.opening, "(", 25⟩,
        ⟨.word, "f", 26⟩, ⟨.or, "|", 28⟩, ⟨.opening, "(", 30⟩, ⟨.word, "g", 31⟩, ⟨.or, "|", 33⟩,
        ⟨.phrase ["h", "i"], "\"h i\"", 35⟩] =
        some (.and [.or [.term "a", .term "b", .and [.term "c", .term "d", .term "e"]],
          .not (.or [.term "f", .term "g", .phrase ["h", "i"]])]) ∧
      (and [.or [.term "a", .term "b", .and [.term "c", .term "d", .term "e"]],
        .not (.or [.term "f", .term "g", .phrase ["h", "i"]])]).IsCanonical := by
  suffices htree : ofTokens? _ = some _ from ⟨htree, (ofTokens?_canonical _ htree).1⟩
  cbv

end Tree

end TsQuery
