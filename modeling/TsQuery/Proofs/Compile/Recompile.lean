import Mathlib
import TsQuery.Proofs.Compile.Derivation
import TsQuery.Proofs.Notation.Nesting
import TsQuery.Proofs.Scan.Vocabulary

/-!
# Compiling a compiled text

A compiled text can be taken as a query again.  The text of a tree over words that stand for
themselves is read as the tree with its double negations taken away
(`Query.tree?_clean_render`), so that the text of a tree without any is compiled to itself.

Compiling any query over and over comes to such a text (`Query.recompile_converges`).  The first
recompilation loses what the notation and the grammar of queries do not share: the sign between the
words of a phrase is noise, and words that spell an operator are read as one.  What is left has
words for leaves (`Tree.IsClean.hasWordLeaves_of_recompiled`).  The second one takes away the double
negations that there are, those that the first one has made among them, and the third one finds
nothing to do.  No recompilation makes the parentheses nest deeper
(`Tree.IsClean.depth_le_of_recompiled`), so that the limit on them is never reached.
-/

namespace TsQuery

/-! ### Words that stand for themselves -/

namespace Query

/-- A word stands for itself if it can be searched for and spells no operator. -/
theorem wordKind?_eq_word {word : Text} (hsearchable : word.isSearchable = true)
    (hkeyword : word.lower ∉ Vocabulary.keywords) : wordKind? word = some .word := by
  have hnone : keywordKind? word.lower = none := by
    rw [Vocabulary.keywords, List.mem_cons, List.mem_cons, List.mem_singleton, not_or,
      not_or] at hkeyword
    rw [keywordKind?, if_neg hkeyword.1, if_neg hkeyword.2.1, if_neg hkeyword.2.2]
  rw [wordKind?, hnone, hsearchable]
  rfl

end Query

/-- The leaves of a symbol that is taken as a token are words that stand for themselves. -/
theorem Notation.leaf?_of_mem_tokensOf {symbols : List Symbol} {token : Token}
    (htoken : token ∈ tokensOf symbols) {leaf : Tree} (hleaf : token.leaf? = some leaf) :
    ∃ word, leaf = .term word ∧ Query.wordKind? word = some .word := by
  obtain ⟨symbol, -, hmem⟩ := List.mem_flatMap.1 htoken
  cases symbol with
  | operand word =>
    obtain ⟨kind, hkind, rfl⟩ := List.mem_map.1 hmem
    have hsome := Option.mem_toList.1 hkind
    rcases Query.wordKind?_eq_some hsome with rfl | rfl | rfl | rfl
    · exact ⟨word, (Option.some.inj hleaf).symm, hsome⟩
    all_goals cases hleaf
  | operator operator =>
    cases operator with
    | followedBy => cases hmem
    | _ =>
      rw [List.mem_singleton.1 hmem] at hleaf
      cases hleaf
  | opening =>
    rw [List.mem_singleton.1 hmem] at hleaf
    cases hleaf
  | closing =>
    rw [List.mem_singleton.1 hmem] at hleaf
    cases hleaf

namespace Tree

/-- Without phrases, words that can be searched for and spell no operator stand for themselves. -/
theorem hasWordLeaves_of_forall_word {tree : Tree} (hphrase : ∀ words, phrase words ∉ tree.leaves)
    (hword : ∀ word ∈ tree.words,
      word.isSearchable = true ∧ word.lower ∉ Vocabulary.keywords) : tree.HasWordLeaves := by
  intro leaf hleaf
  rcases leaf_of_mem_leaves hleaf with ⟨word, rfl⟩ | ⟨words, rfl⟩
  · have hmem : word ∈ tree.words := List.mem_flatMap.2 ⟨_, hleaf, List.mem_singleton_self word⟩
    obtain ⟨hsearchable, hkeyword⟩ := hword word hmem
    exact ⟨word, rfl, Query.wordKind?_eq_word hsearchable hkeyword⟩
  · exact absurd hleaf (hphrase words)

namespace IsClean

variable {tree next : Tree}

/-- The text of a clean tree over words that stand for themselves is read as the tree with its
double negations taken away. -/
theorem tree?_render (h : tree.IsClean) (hleaf : tree.HasWordLeaves)
    (hdepth : tree.depth ≤ maxDepth) :
    Query.tree? (Query.clean tree.render) = some tree.settled := by
  rw [h.tree?_clean, ofTokens?_symbols h.canonical hleaf hdepth]

/-- What the text of a clean tree is read as has words for leaves. -/
theorem hasWordLeaves_of_recompiled (h : tree.IsClean)
    (hnext : Query.tree? (Query.clean tree.render) = some next) : next.HasWordLeaves := by
  rw [h.tree?_clean] at hnext
  have hleaves := Tree.leavesOption_ofTokens? (Notation.tokensOf tree.symbols)
  rw [hnext] at hleaves
  intro leaf hleaf
  have hmem : leaf ∈ (Notation.tokensOf tree.symbols).filterMap Token.leaf? := by
    rw [← hleaves]
    exact hleaf
  obtain ⟨token, htoken, hsome⟩ := List.mem_filterMap.1 hmem
  exact Notation.leaf?_of_mem_tokensOf htoken hsome

/-- What the text of a clean tree is read as nests no deeper than the tree. -/
theorem depth_le_of_recompiled (h : tree.IsClean) (hdepth : tree.depth ≤ maxDepth)
    (hnext : Query.tree? (Query.clean tree.render) = some next) : next.depth ≤ tree.depth := by
  rw [h.tree?_clean] at hnext
  exact Tree.depth_le_of_nested tree.nested_symbols hdepth next hnext

end IsClean

end Tree

/-! ### Reading a compiled text back -/

namespace Query

/-- The text of a canonical tree without phrases, over words that cleaning leaves as they are and
that spell no operator, is read as the tree with its double negations taken away, if its parentheses
nest no deeper than the limit.  A tree without double negations is read as it is, and its text is
compiled to itself. -/
theorem tree?_clean_render {tree : Tree} (hcanonical : tree.IsCanonical)
    (hphrase : ∀ words, .phrase words ∉ tree.leaves)
    (hword : ∀ word ∈ tree.words, IsCleanWord word ∧ word.lower ∉ Vocabulary.keywords)
    (hnesting : Notation.nesting tree.render ≤ maxDepth) :
    tree? (clean tree.render) = some tree.settled ∧
      (tree.HasSingleNegations → tree? (clean tree.render) = some tree ∧
        compileText (clean tree.render) = tree.render) := by
  have hclean : tree.IsClean := {
    canonical := hcanonical
    two_le_of_phrase := fun words hwords => absurd hwords (hphrase words)
    word := fun word hmem => (hword word hmem).1 }
  have hleaf : tree.HasWordLeaves := Tree.hasWordLeaves_of_forall_word hphrase fun word hmem =>
    ⟨(hword word hmem).1.searchable, (hword word hmem).2⟩
  rw [Tree.nesting_render hclean.isOperandWord] at hnesting
  have hread := hclean.tree?_render hleaf hnesting
  refine ⟨hread, fun hsingle => ?_⟩
  rw [Tree.settled_eq_self hcanonical hsingle] at hread
  refine ⟨hread, ?_⟩
  rw [compileText, hread, Tree.renderOption]

/-- A conjunction is spliced into the one around it when the double negation between them is taken
away, and a tree without double negations is read as it is. -/
theorem tree?_clean_render_of_spliced :
    tree? (clean (Tree.and [.not (.not (.and [.term "a", .term "b"])), .term "c"]).render) =
        some (.and [.term "a", .term "b", .term "c"]) ∧
      compileText (clean (Tree.not (.or [.term "a", .term "b"])).render) =
        (Tree.not (.or [.term "a", .term "b"])).render := by
  have hword : ∀ word ∈ (["a", "b", "c"] : List Text),
      IsCleanWord word ∧ word.lower ∉ Vocabulary.keywords := by
    have hchars : ∀ word ∈ (["a", "b", "c"] : List Text), word.isSearchable = true ∧
        (∀ c ∈ word, isWordChar c = true ∧ isNoise c = false ∧ isControl c = false) ∧
        word.lower ∉ Vocabulary.keywords := by
      decide +kernel
    intro word hmem
    obtain ⟨hsearchable, hplain, hkeyword⟩ := hchars word hmem
    exact ⟨⟨hsearchable, fun c hc => (hplain c hc).1, fun c hc => (hplain c hc).2.1,
      fun c hc => (hplain c hc).2.2⟩, hkeyword⟩
  have hterms : ∀ tree ∈ [Tree.term "a", .term "b"], tree.IsCanonical := by
    simp [Tree.IsCanonical.term]
  have hsingle : ∀ tree ∈ [Tree.term "a", .term "b"], tree.HasSingleNegations := by
    simp [Tree.HasSingleNegations.term]
  constructor
  · have hinner : (Tree.and [.term "a", .term "b"]).IsCanonical :=
      .and (by decide) hterms (by decide)
    have hcanonical :
        (Tree.and [.not (.not (.and [.term "a", .term "b"])), .term "c"]).IsCanonical := by
      refine .and (by decide) ?_ (by decide)
      simp [Tree.IsCanonical.term, Tree.IsCanonical.not, hinner]
    exact (tree?_clean_render hcanonical (by simp) hword (by decide)).1
  · have hcanonical : (Tree.not (.or [.term "a", .term "b"])).IsCanonical :=
      .not (.or (by decide) hterms (by decide))
    have hwords : ∀ word ∈ (Tree.not (.or [.term "a", .term "b"])).words,
        IsCleanWord word ∧ word.lower ∉ Vocabulary.keywords :=
      fun word hmem => hword word (List.mem_append_left [("c" : Text)] hmem)
    exact ((tree?_clean_render hcanonical (by simp) hwords (by decide)).2
      (.not (.or hsingle) rfl)).2

/-- The text that a query text compiles to. -/
def recompile (text : Text) : Text :=
  compileText (clean text)

theorem recompile_of_tree? {text : Text} {tree : Tree} (h : tree? (clean text) = some tree) :
    recompile text = tree.render := by
  rw [recompile, compileText, h, Tree.renderOption]

theorem recompile_of_tree?_eq_none {text : Text} (h : tree? (clean text) = none) :
    recompile text = [] := by
  rw [recompile, compileText, h, Tree.renderOption]

/-- Nothing is compiled to nothing. -/
theorem recompile_nil : recompile [] = [] :=
  recompile_of_tree?_eq_none (by cbv)

end Query

/-! ### Compiling over and over -/

namespace Tree.IsClean

open Query

variable {tree : Tree}

/-- The text of a settled tree over words that stand for themselves is compiled to itself. -/
theorem recompile_render (h : tree.IsClean) (hleaf : tree.HasWordLeaves)
    (hdepth : tree.depth ≤ maxDepth) (hsingle : tree.HasSingleNegations) :
    recompile tree.render = tree.render := by
  have hread := h.tree?_render hleaf hdepth
  rw [settled_eq_self h.canonical hsingle] at hread
  exact recompile_of_tree? hread

/-- Compiling the text of a tree over words that stand for themselves gives a text that is compiled
to itself. -/
theorem recompile_recompile_of_hasWordLeaves (h : tree.IsClean) (hleaf : tree.HasWordLeaves)
    (hdepth : tree.depth ≤ maxDepth) :
    recompile (recompile tree.render) = recompile tree.render := by
  have hread := h.tree?_render hleaf hdepth
  have hnext := h.depth_le_of_recompiled hdepth hread
  rw [recompile_of_tree? hread]
  exact (isClean_tree? hread).recompile_render (h.hasWordLeaves_of_recompiled hread)
    (Nat.le_trans hnext hdepth) (hasSingleNegations_settled tree)

/-- Compiling the text of a clean tree twice gives a text that is compiled to itself. -/
theorem recompile_recompile (h : tree.IsClean) (hdepth : tree.depth ≤ maxDepth) :
    recompile (recompile (recompile tree.render)) = recompile (recompile tree.render) := by
  cases hread : tree? (clean tree.render) with
  | none => rw [recompile_of_tree?_eq_none hread, recompile_nil, recompile_nil]
  | some next =>
    have hnext := h.depth_le_of_recompiled hdepth hread
    rw [recompile_of_tree? hread]
    exact (isClean_tree? hread).recompile_recompile_of_hasWordLeaves
      (h.hasWordLeaves_of_recompiled hread) (Nat.le_trans hnext hdepth)

end Tree.IsClean

namespace Query

/-- The fourth time, a text is compiled to what it was the third time. -/
theorem recompile_third {text : Text} (h : Notation.nesting (recompile text) ≤ maxDepth) :
    recompile (recompile (recompile (recompile text))) =
      recompile (recompile (recompile text)) := by
  cases hread : tree? (clean text) with
  | none => rw [recompile_of_tree?_eq_none hread, recompile_nil, recompile_nil, recompile_nil]
  | some tree =>
    have hclean : tree.IsClean := isClean_tree? hread
    rw [recompile_of_tree? hread] at h ⊢
    rw [Tree.nesting_render hclean.isOperandWord] at h
    exact hclean.recompile_recompile h

/-- Compiling a query over and over, if the parentheses of its compiled text nest no deeper than the
limit, gives the same text from the third time on. -/
theorem recompile_converges {text : Text} (h : Notation.nesting (recompile text) ≤ maxDepth) :
    recompile^[4] text = recompile^[3] text ∧
      ∀ k, 3 ≤ k → recompile^[k] text = recompile^[3] text := by
  have hfixed : recompile (recompile^[3] text) = recompile^[3] text := recompile_third h
  have hfrom (n : Nat) : recompile^[n + 3] text = recompile^[3] text := by
    rw [Function.iterate_add_apply]
    exact Function.iterate_fixed hfixed n
  refine ⟨hfrom 1, fun k hk => ?_⟩
  obtain ⟨n, rfl⟩ := Nat.exists_eq_add_of_le' hk
  exact hfrom n

set_option maxRecDepth 4000 in
/-- The first recompilation reads the word in the phrase as an operator, the second one takes away
the double negation that this makes, and the third one finds nothing to do. -/
theorem recompile_converges_of_negated_phrase :
    recompile "!\"not b\"" = "!( not <-> b )" ∧ recompile^[2] "!\"not b\"" = "!!b" ∧
      ∀ k, 3 ≤ k → recompile^[k] "!\"not b\"" = "b" := by
  have hfirst : recompile "!\"not b\"" = "!( not <-> b )" := by cbv
  have hsecond : recompile "!( not <-> b )" = "!!b" := by cbv
  have hthird : recompile "!!b" = "b" := by cbv
  have hnesting : Notation.nesting (recompile "!\"not b\"") ≤ maxDepth := by
    rw [hfirst]
    decide
  have hsteps : recompile^[3] "!\"not b\"" = recompile (recompile (recompile "!\"not b\"")) := rfl
  have hconverges := (recompile_converges hnesting).2
  rw [hsteps, hfirst, hsecond, hthird] at hconverges
  refine ⟨hfirst, ?_, hconverges⟩
  have htwice : recompile^[2] "!\"not b\"" = recompile (recompile "!\"not b\"") := rfl
  rw [htwice, hfirst, hsecond]

end Query

end TsQuery
