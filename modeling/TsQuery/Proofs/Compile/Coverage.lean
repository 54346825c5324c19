import Mathlib
import TsQuery.Proofs.Notation.Listing
import TsQuery.Proofs.Scan.Clean
import TsQuery.Proofs.Scan.Vocabulary

/-!
# Vocabulary and text of a compiled query

The vocabulary of a query is taken from its tokens, and the words that are listed of its compiled
text from that text.  Both are described here by the leaves of the tree that lies between them: all
lower-case words of the leaves are listed, and the vocabulary leaves out the terms that spell an
operator and nothing else (`Compiled.Covers`).
-/

namespace TsQuery

/-! ### The vocabulary of a sequence of tokens -/

namespace Vocabulary

/-- A word is marked, one way or the other, exactly if an operand has it. -/
theorem mem_marks_iff {negated : Bool} {tokens : List Token} {word : Text} :
    (∃ mark, (mark, word) ∈ marks negated tokens) ↔
      ∃ token ∈ tokens, word ∈ operandWords token.words := by
  induction tokens generalizing negated with
  | nil => simp only [marks, List.not_mem_nil, exists_false, false_and]
  | cons token tokens ih =>
    rw [List.exists_mem_cons_iff, marks_cons]
    simp only [List.mem_append, List.mem_map, Prod.mk.injEq, exists_eq_right_right, exists_or,
      exists_and_left, exists_eq', and_true, ih]

/-- The vocabulary of a sequence of tokens is what its operands contribute. -/
theorem mem_ofTokens_iff {tokens : List Token} {word : Text} :
    (word ∈ (ofTokens tokens).included ∨ word ∈ (ofTokens tokens).excluded) ↔
      ∃ token ∈ tokens, word ∈ operandWords token.words := by
  have hmarks : (∃ mark, (mark, word) ∈ marks false tokens) ↔
      ∃ token ∈ tokens, word ∈ operandWords token.words := mem_marks_iff
  rw [ofTokens, mem_marked_iff, mem_marked_iff, ← hmarks, Bool.exists_bool]

end Vocabulary

/-! ### Leaves -/

/-- What the operands among the tokens contribute to the vocabulary is what the leaves of the tree
do. -/
theorem Tree.exists_mem_operandWords_iff {tokens : List Token} {word : Text} :
    (∃ token ∈ tokens, word ∈ Vocabulary.operandWords token.words) ↔
      ∃ leaf ∈ leavesOption (ofTokens? tokens), word ∈ Vocabulary.operandWords leaf.leafWords := by
  rw [leavesOption_ofTokens?]
  constructor
  · rintro ⟨token, htoken, hword⟩
    cases hleaf : token.leaf? with
    | none =>
      rw [Token.words_of_leaf?_eq_none hleaf] at hword
      cases hword
    | some leaf =>
      refine ⟨leaf, List.mem_filterMap.2 ⟨token, htoken, hleaf⟩, ?_⟩
      rwa [Token.leafWords_of_leaf? hleaf]
  · rintro ⟨leaf, hmem, hword⟩
    obtain ⟨token, htoken, hleaf⟩ := List.mem_filterMap.1 hmem
    exact ⟨token, htoken, by rwa [← Token.leafWords_of_leaf? hleaf]⟩

/-! ### Coverage -/

/-- How the words listed of a compiled query and its vocabulary go back to the leaves of a tree, and
with that to each other. -/
structure Compiled.Covers (compiled : Compiled) (leaves : List Tree) : Prop where
  /-- Listed are the words of the leaves. -/
  listed : ∀ word, word ∈ Listing.terms compiled.text ↔
    ∃ leaf ∈ leaves, word ∈ leaf.leafWords.map Text.lower
  /-- The vocabulary is the words of the phrases and the terms that spell no operator. -/
  vocabulary : ∀ word,
    (word ∈ compiled.vocabulary.included ∨ word ∈ compiled.vocabulary.excluded) ↔
      (∃ words, .phrase words ∈ leaves ∧ word ∈ words.map Text.lower) ∨
        ∃ term, .term term ∈ leaves ∧ term.lower = word ∧ word ∉ Vocabulary.keywords
  /-- The vocabulary is listed. -/
  vocabulary_listed : ∀ word,
    word ∈ compiled.vocabulary.included ∨ word ∈ compiled.vocabulary.excluded →
      word ∈ Listing.terms compiled.text
  /-- What else is listed spells an operator. -/
  rest_keywords : ∀ word ∈ Listing.terms compiled.text,
    ¬(word ∈ compiled.vocabulary.included ∨ word ∈ compiled.vocabulary.excluded) →
      word ∈ Vocabulary.keywords

namespace Query

/-- The words listed of a compiled text are those of the leaves of its tree, in lower case. -/
theorem mem_terms_compileText_iff {text word : Text} :
    word ∈ Listing.terms (compileText (clean text)) ↔
      ∃ leaf ∈ Tree.leavesOption (tree? (clean text)), word ∈ leaf.leafWords.map Text.lower := by
  have hwords : Listing.words (compileText (clean text)) =
      ((Tree.leavesOption (tree? (clean text))).flatMap Tree.leafWords).map Text.lower := by
    rw [compileText]
    cases htree : tree? (clean text) with
    | none => exact Listing.words_of_symbols? .nil rfl
    | some tree =>
      exact Tree.listing_words_render (isClean_tree? htree).isOperandWord
  rw [Listing.terms, Text.mem_sortedSet, hwords, List.map_flatMap, List.mem_flatMap]

/-- The vocabulary of a query holds the words of the phrases of its tree, and its terms that do not
spell an operator, in lower case. -/
theorem mem_vocabulary_iff {text word : Text} :
    (word ∈ (vocabulary text).included ∨ word ∈ (vocabulary text).excluded) ↔
      (∃ words, .phrase words ∈ Tree.leavesOption (tree? (clean text)) ∧
        word ∈ words.map Text.lower) ∨
      ∃ term, .term term ∈ Tree.leavesOption (tree? (clean text)) ∧
        term.lower = word ∧ word ∉ Vocabulary.keywords := by
  rw [vocabulary, Vocabulary.ofText, Vocabulary.mem_ofTokens_iff,
    Tree.exists_mem_operandWords_iff]
  constructor
  · rintro ⟨leaf, hleaf, hword⟩
    rw [operandWords_leafWords hleaf, Tree.mem_searchWords_iff] at hword
    rcases hword with ⟨words, rfl, hword⟩ | ⟨term, rfl, hword⟩
    · exact Or.inl ⟨words, hleaf, hword⟩
    · exact Or.inr ⟨term, hleaf, hword⟩
  · rintro (⟨words, hleaf, hword⟩ | ⟨term, hleaf, hword⟩)
    · refine ⟨.phrase words, hleaf, ?_⟩
      rw [operandWords_leafWords hleaf, Tree.mem_searchWords_iff]
      exact Or.inl ⟨words, rfl, hword⟩
    · refine ⟨.term term, hleaf, ?_⟩
      rw [operandWords_leafWords hleaf, Tree.mem_searchWords_iff]
      exact Or.inr ⟨term, rfl, hword⟩

/-- The compiled form of a query and the leaves of its tree cover each other. -/
theorem covers_compiled (text : Text) :
    (compiled text).Covers (Tree.leavesOption (tree? (clean text))) where
  listed _ := mem_terms_compileText_iff
  vocabulary _ := mem_vocabulary_iff
  vocabulary_listed word hword := by
    refine mem_terms_compileText_iff.2 ?_
    rcases mem_vocabulary_iff.1 hword with ⟨words, hleaf, hword⟩ | ⟨term, hleaf, rfl, -⟩
    · exact ⟨.phrase words, hleaf, hword⟩
    · exact ⟨.term term, hleaf, List.mem_singleton_self term.lower⟩
  rest_keywords word hlisted hword := by
    obtain ⟨leaf, hleaf, hmem⟩ := mem_terms_compileText_iff.1 hlisted
    by_contra hkeyword
    refine hword (mem_vocabulary_iff.2 ?_)
    rcases Tree.leaf_cases hleaf with ⟨term, rfl⟩ | ⟨words, rfl, -⟩
    · exact Or.inr ⟨term, hleaf, (List.mem_singleton.1 hmem).symm, hkeyword⟩
    · exact Or.inl ⟨words, hleaf, hmem⟩

/-- A query that is accepted compiles, and its vocabulary and the words listed of its compiled text
are those of the leaves of its tree. -/
theorem compile_covers_leaves {limit : Int} {value : Json} {text : Text}
    (h : accept limit value = .ok text) :
    ∃ compiled, compile limit value = .ok compiled ∧
      compiled.Covers (Tree.leavesOption (tree? (clean text))) := by
  refine ⟨compiled text, ?_, covers_compiled text⟩
  rw [compile, h]
  rfl

set_option maxRecDepth 4000 in
/-- The first operand spells an operator, so that it is listed and in no vocabulary. -/
theorem compile_covers_leaves_of_keyword :
    ∃ compiled, compile 1000 (.string "\"or\" & !a-B") = .ok compiled ∧
      compiled.Covers [.term "or", .term "a-B"] := by
  have hleaves : Tree.leavesOption (tree? (clean "\"or\" & !a-B")) = [.term "or", .term "a-B"] := by
    cbv
  rw [← hleaves]
  exact compile_covers_leaves rfl

end Query

end TsQuery
