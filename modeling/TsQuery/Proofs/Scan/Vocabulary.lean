import TsQuery.Proofs.Scan.Words
import TsQuery.Proofs.Text.LowerCase
import TsQuery.Query.Vocabulary

/-!
# Vocabulary of a leaf

The vocabulary of a query skips an operand that is nothing but the name of an operator.  Names of
operators are signs or keywords, and no word that is cut from a text has a sign in it, not even in
lower case.  So a leaf of a tree has all its words in the vocabulary, in lower case, unless it is a
term that spells a keyword (`Query.operandWords_leafWords`).
-/

namespace TsQuery

namespace Vocabulary

/-- The words that spell an operator. -/
def keywords : List Text :=
  [['a', 'n', 'd'], ['o', 'r'], ['n', 'o', 't']]

/-- Whether a negation is pending after a token, given whether one is before. -/
def pendingAfter (negated : Bool) (token : Token) : Bool :=
  match token.kind with
  | .not => !negated
  | .opening => negated
  | _ => false

/-- A token marks the words that it contributes as the negation that is pending says. -/
theorem marks_cons (negated : Bool) (token : Token) (tokens : List Token) :
    marks negated (token :: tokens) =
      (operandWords token.words).map (negated, ·) ++ marks (pendingAfter negated token) tokens := by
  obtain ⟨kind, text, position⟩ := token
  cases kind with
  | word => rw [marks, pendingAfter]
  | phrase words => rw [marks, pendingAfter]
  | not => rw [marks]; rfl
  | opening => rw [marks]; rfl
  | and => rw [marks]; rfl
  | or => rw [marks]; rfl
  | closing => rw [marks]; rfl

/-- The words with a mark are those that are listed with it. -/
theorem mem_marked_iff {mark : Bool} {words : List (Bool × Text)} {word : Text} :
    word ∈ marked mark words ↔ (mark, word) ∈ words := by
  simp only [marked, Text.mem_sortedSet, List.mem_map, List.mem_filter, beq_iff_eq, Prod.exists,
    exists_eq_right]

/-- Two or more words are all kept. -/
theorem operandWords_of_two_le {words : List Text} (h : 2 ≤ words.length) :
    operandWords words = words.map Text.lower := by
  rcases words with _ | ⟨word, _ | ⟨next, more⟩⟩
  · rfl
  · exact absurd h (by rw [List.length_singleton]; decide)
  · rfl

/-- A sign is not the lower case of a word. -/
theorem lower_ne_of_isWordChar {word : Text} (hword : ∀ c ∈ word, Query.isWordChar c = true)
    (sign : CodePoint) (hsign : Query.isWordChar sign = false) (hsmall : ¬sign.IsSmallOrBeyond) :
    word.lower ≠ [sign] := by
  intro hlower
  have hmem : sign ∈ word.lower := by
    rw [hlower]
    exact List.mem_singleton_self sign
  rcases Text.mem_or_isSmallOrBeyond_of_mem_lower hmem with h | h
  · rw [hword sign h] at hsign
    cases hsign
  · exact hsmall h

/-- The only names of operators that a word can have in lower case are those that are spelled. -/
theorem lower_mem_operatorWords_iff {word : Text} (hword : ∀ c ∈ word, Query.isWordChar c = true) :
    word.lower ∈ operatorWords ↔ word.lower ∈ keywords := by
  have hand := lower_ne_of_isWordChar hword '&' (by decide) (by decide)
  have hor := lower_ne_of_isWordChar hword '|' (by decide) (by decide)
  have hnot := lower_ne_of_isWordChar hword '!' (by decide) (by decide)
  simp only [operatorWords, keywords, List.mem_cons, hand, hor, hnot, false_or]

end Vocabulary

namespace Tree

/-- The words of a leaf that a search looks for, in lower case: those of a phrase, and a term unless
it spells an operator. -/
def searchWords : Tree → List Text
  | term word => if word.lower ∈ Vocabulary.keywords then [] else [word.lower]
  | phrase words => words.map Text.lower
  | _ => []

theorem mem_searchWords_term_iff {term word : Text} :
    word ∈ (Tree.term term).searchWords ↔ term.lower = word ∧ word ∉ Vocabulary.keywords := by
  rw [searchWords]
  by_cases hkeyword : term.lower ∈ Vocabulary.keywords
  · rw [if_pos hkeyword]
    refine iff_of_false List.not_mem_nil ?_
    rintro ⟨rfl, hword⟩
    exact hword hkeyword
  · rw [if_neg hkeyword, List.mem_singleton]
    constructor
    · rintro rfl
      exact ⟨rfl, hkeyword⟩
    · rintro ⟨rfl, -⟩
      rfl

theorem mem_searchWords_iff {leaf : Tree} {word : Text} :
    word ∈ leaf.searchWords ↔
      (∃ words, leaf = .phrase words ∧ word ∈ words.map Text.lower) ∨
        ∃ term, leaf = .term term ∧ term.lower = word ∧ word ∉ Vocabulary.keywords := by
  cases leaf with
  | term spelled => simp [mem_searchWords_term_iff]
  | phrase words => simp [searchWords]
  | _ => simp [searchWords]

end Tree

namespace Query

/-- The words of the leaves of a query are runs of word characters. -/
theorem isWordChar_of_mem_leafWords {text : Text} {leaf : Tree}
    (hleaf : leaf ∈ Tree.leavesOption (tree? text)) {word : Text} (hword : word ∈ leaf.leafWords) :
    ∀ c ∈ word, isWordChar c = true := by
  have hmem : word ∈ (Tree.leavesOption (tree? text)).flatMap Tree.leafWords :=
    List.mem_flatMap.2 ⟨leaf, hleaf, hword⟩
  rw [tree?, Tree.flatMap_leafWords_ofTokens?] at hmem
  obtain ⟨token, htoken, hword⟩ := List.mem_flatMap.1 hmem
  exact fun c hc => ((isWordOf_of_mem_tokensFrom htoken word hword).2 c hc).1

/-- What a leaf of a query contributes to the vocabulary is its words, unless it is a term that
spells an operator. -/
theorem operandWords_leafWords {text : Text} {leaf : Tree}
    (hleaf : leaf ∈ Tree.leavesOption (tree? text)) :
    Vocabulary.operandWords leaf.leafWords = leaf.searchWords := by
  rcases Tree.leaf_cases hleaf with ⟨term, rfl⟩ | ⟨words, rfl, htwo⟩
  · have hterm : ∀ c ∈ term, isWordChar c = true :=
      isWordChar_of_mem_leafWords hleaf (List.mem_singleton_self term)
    have hnames : Vocabulary.operatorWords.contains term.lower = true ↔
        term.lower ∈ Vocabulary.keywords := by
      rw [List.contains_iff_mem, Vocabulary.lower_mem_operatorWords_iff hterm]
    have hwords : Vocabulary.operandWords [term] =
        if Vocabulary.operatorWords.contains term.lower then [] else [term.lower] := rfl
    rw [Tree.leafWords, hwords, Tree.searchWords]
    simp only [hnames]
  · rw [Tree.leafWords, Tree.searchWords, Vocabulary.operandWords_of_two_le htwo]

end Query

end TsQuery
