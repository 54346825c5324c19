import Mathlib.Data.List.TakeWhile
import TsQuery.Proofs.Assembly.Leaves
import TsQuery.Proofs.Notation.Symbols
import TsQuery.Query.Compile

/-!
# Words of a query

Every word that a query contributes is a non-empty run of characters of the query that have no
meaning to its grammar (`Query.IsWordOf`), whether it stands by itself or in quotes, and the words
of the tree of a query are those that its tokens contribute (`Tree.flatMap_leafWords_ofTokens?`).
Cleaning takes out `<` and `>`, the only characters that have a meaning to the notation of compiled
queries and not to the grammar (`Query.isOperandChar_of_isWordChar`).
-/

namespace TsQuery

/-! ### Runs of a text -/

namespace Text

theorem flatten_closeRun (read : Text × List Text) :
    (closeRun read).flatten = read.1 ++ read.2.flatten := by
  obtain ⟨leading, later⟩ := read
  cases leading with
  | nil => rfl
  | cons c leading => rfl

/-- The runs of a text, one after another, are its kept characters. -/
theorem flatten_runs (keep : CodePoint → Bool) (text : Text) :
    (runs keep text).flatten = text.filter keep := by
  rw [runs, flatten_closeRun]
  induction text with
  | nil => rfl
  | cons c text ih =>
    change (consRun keep c (leadingRun keep text)).1 ++
      (consRun keep c (leadingRun keep text)).2.flatten = _
    rw [consRun]
    by_cases hc : keep c = true
    · rw [if_pos hc, List.filter_cons_of_pos hc, ← ih, List.cons_append]
    · rw [if_neg hc, List.filter_cons_of_neg hc, ← ih, List.nil_append, flatten_closeRun]

/-- A run of a text holds characters of the text. -/
theorem mem_of_mem_runs {keep : CodePoint → Bool} {text run : Text} (hrun : run ∈ runs keep text)
    {c : CodePoint} (hc : c ∈ run) : c ∈ text := by
  have hflat : c ∈ (runs keep text).flatten := List.mem_flatten.2 ⟨run, hrun, hc⟩
  rw [flatten_runs] at hflat
  exact (List.mem_filter.1 hflat).1

end Text

/-! ### Words of the tokens -/

namespace Query

/-- A word that can be cut from a text: characters of the text without a meaning to the grammar. -/
def IsWordOf (text word : Text) : Prop :=
  word ≠ [] ∧ ∀ c ∈ word, isWordChar c = true ∧ c ∈ text

theorem IsWordOf.mono {small large word : Text} (hsubset : small ⊆ large)
    (h : IsWordOf small word) : IsWordOf large word :=
  ⟨h.1, fun c hc => ⟨(h.2 c hc).1, hsubset (h.2 c hc).2⟩⟩

theorem isWordOf_of_mem_phraseWords {inside word : Text} (h : word ∈ phraseWords inside) :
    IsWordOf inside word := by
  have hrun : word ∈ inside.runs isWordChar := (List.mem_filter.1 h).1
  obtain ⟨hne, hkeep⟩ := Text.keep_of_mem_runs hrun
  exact ⟨hne, fun c hc => ⟨hkeep c hc, Text.mem_of_mem_runs hrun hc⟩⟩

/-- The run of word characters that a text begins with is a word of the text. -/
theorem isWordOf_run {c : CodePoint} (hc : isWordChar c = true) (text : Text) :
    IsWordOf (c :: text) (c :: text.takeWhile isWordChar) := by
  refine ⟨List.cons_ne_nil _ _, fun d hd => ?_⟩
  rcases List.mem_cons.1 hd with rfl | hd
  · exact ⟨hc, List.mem_cons_self⟩
  · exact ⟨List.mem_takeWhile_imp hd,
      List.mem_cons_of_mem c ((List.takeWhile_sublist isWordChar).subset hd)⟩

/-- A text with a closing quote is the inside of the phrase, the quote and the rest. -/
theorem eq_append_of_splitQuote? {text inside rest : Text}
    (h : splitQuote? text = some (inside, rest)) : text = inside ++ quoteMark :: rest := by
  have hsplit := List.takeWhile_append_dropWhile (p := (· != quoteMark)) (l := text)
  unfold splitQuote? at h
  split at h
  · cases h
  · next mark rest' hdrop =>
    cases h
    have hmark : (mark != quoteMark) = false := by
      have hhead := List.head?_dropWhile_not (· != quoteMark) text
      rwa [hdrop] at hhead
    rw [hdrop, bne_eq_false_iff_eq.1 hmark] at hsplit
    exact hsplit.symm

/-- Signs contribute no words. -/
theorem words_of_signKind? {c : CodePoint} {kind : TokenKind} (h : signKind? c = some kind)
    (text : Text) (position : Nat) : Token.words ⟨kind, text, position⟩ = [] := by
  unfold signKind? at h
  split at h <;> cases h <;> rfl

/-- A word that spells an operator is one of three. -/
theorem keywordKind?_eq_some {word : Text} {kind : TokenKind} (h : keywordKind? word = some kind) :
    kind = .and ∨ kind = .or ∨ kind = .not := by
  unfold keywordKind? at h
  split at h
  · exact Or.inl (Option.some.inj h).symm
  · split at h
    · exact Or.inr (Or.inl (Option.some.inj h).symm)
    · split at h
      · exact Or.inr (Or.inr (Option.some.inj h).symm)
      · cases h

/-- A run is a word or spells an operator. -/
theorem wordKind?_eq_some {run : Text} {kind : TokenKind} (h : wordKind? run = some kind) :
    kind = .word ∨ kind = .and ∨ kind = .or ∨ kind = .not := by
  unfold wordKind? at h
  split at h
  · next hkeyword =>
    cases h
    exact Or.inr (keywordKind?_eq_some hkeyword)
  · split at h
    · exact Or.inl (Option.some.inj h).symm
    · cases h

/-- A run contributes itself or, if it spells an operator, nothing. -/
theorem words_of_wordKind? {run : Text} {kind : TokenKind} (h : wordKind? run = some kind)
    (position : Nat) : ∀ word ∈ Token.words ⟨kind, run, position⟩, word = run := by
  rcases wordKind?_eq_some h with rfl | rfl | rfl | rfl
  · exact fun word hword => List.mem_singleton.1 hword
  all_goals exact fun _ hword => absurd hword List.not_mem_nil

/-- A token contributes words of the text that it is cut from. -/
theorem isWordOf_of_mem_tokensFrom {position : Nat} {text : Text} {token : Token}
    (htoken : token ∈ tokensFrom position text) :
    ∀ word ∈ token.words, IsWordOf text word := by
  -- The cases of the scan: the end, a phrase, a quote without a partner, a sign, a blank and a run.
  fun_induction tokensFrom position text with
  | case1 => cases htoken
  | case2 position text inside rest hsplit ih =>
    have htext := eq_append_of_splitQuote? hsplit
    intro word hword
    rcases List.mem_cons.1 htoken with rfl | htoken
    · refine (isWordOf_of_mem_phraseWords hword).mono fun c hc => ?_
      rw [htext]
      exact List.mem_cons_of_mem _ (List.mem_append_left _ hc)
    · refine (ih htoken word hword).mono fun c hc => ?_
      rw [htext]
      exact List.mem_cons_of_mem _ (List.mem_append_right _ (List.mem_cons_of_mem _ hc))
  | case3 position text _ ih =>
    exact fun word hword => (ih htoken word hword).mono (List.subset_cons_self _ _)
  | case4 position c text _ kind hkind ih =>
    intro word hword
    rcases List.mem_cons.1 htoken with rfl | htoken
    · rw [words_of_signKind? hkind] at hword
      cases hword
    · exact (ih htoken word hword).mono (List.subset_cons_self _ _)
  | case5 position c text _ _ _ ih =>
    exact fun word hword => (ih htoken word hword).mono (List.subset_cons_self _ _)
  | case6 position c text hquote hkind hblank run ih =>
    have hc : isWordChar c = true := by
      rw [isWordChar, hkind, Bool.eq_false_iff.2 hblank, bne_iff_ne.2 hquote]
      rfl
    intro word hword
    rcases List.mem_append.1 htoken with htoken | htoken
    · obtain ⟨kind, hmem, rfl⟩ := List.mem_map.1 htoken
      rw [words_of_wordKind? (Option.mem_toList.1 hmem) _ word hword]
      exact isWordOf_run hc text
    · refine (ih htoken word hword).mono fun d hd => ?_
      exact List.mem_cons_of_mem c ((List.dropWhile_sublist isWordChar).subset hd)

/-! ### Clean queries -/

/-- A clean text has no noise left. -/
theorem isNoise_of_mem_clean {text : Text} {c : CodePoint} (h : c ∈ clean text) :
    isNoise c = false := by
  obtain ⟨d, -, rfl⟩ := List.mem_map.1 h
  by_cases hd : isNoise d = true
  · rw [if_pos hd]
    decide
  · rw [if_neg hd]
    exact Bool.eq_false_iff.2 hd

/-- What has a meaning to the notation of compiled queries is noise or has one to the grammar. -/
theorem isOperandChar_of_isWordChar {c : CodePoint} (hword : isWordChar c = true)
    (hnoise : isNoise c = false) : Notation.isOperandChar c = true := by
  have hsigns : ∀ d ∈ Listing.operatorCharacters, isNoise d = true ∨ isWordChar d = false := by
    decide
  have hoperator : Listing.isOperatorChar c = false := by
    rw [Listing.isOperatorChar, List.contains_eq_mem, decide_eq_false_iff_not]
    intro hmem
    rcases hsigns c hmem with h | h
    · rw [hnoise] at h
      cases h
    · rw [hword] at h
      cases h
  rw [isWordChar, Bool.and_assoc, Bool.and_eq_true] at hword
  rw [Notation.isOperandChar, hword.1, hoperator]
  rfl

end Query

/-! ### Words of the tree -/

/-- The leaf that a token stands for has the words that the token contributes. -/
theorem Token.flatMap_leafWords_leaf? (token : Token) :
    token.leaf?.toList.flatMap Tree.leafWords = token.words := by
  obtain ⟨kind, text, position⟩ := token
  rcases kind with _ | ⟨_ | ⟨word, _ | ⟨next, more⟩⟩⟩
  case phrase.cons.cons => exact List.append_nil _
  all_goals rfl

theorem Token.leafWords_of_leaf? {token : Token} {leaf : Tree} (h : token.leaf? = some leaf) :
    leaf.leafWords = token.words := by
  have hwords := token.flatMap_leafWords_leaf?
  rwa [h, Option.toList_some, List.flatMap_singleton] at hwords

theorem Token.words_of_leaf?_eq_none {token : Token} (h : token.leaf? = none) :
    token.words = [] := by
  have hwords := token.flatMap_leafWords_leaf?
  rw [h] at hwords
  exact hwords.symm

/-- The words of the tree are those that the tokens contribute, in order. -/
theorem Tree.flatMap_leafWords_ofTokens? (tokens : List Token) :
    (leavesOption (ofTokens? tokens)).flatMap leafWords = tokens.flatMap Token.words := by
  rw [leavesOption_ofTokens?, List.filterMap_eq_flatMap_toList, List.flatMap_assoc]
  exact congrArg tokens.flatMap (funext Token.flatMap_leafWords_leaf?)

/-- What holds of the words of the tokens holds of the words of the tree. -/
theorem Tree.forall_words_ofTokens? {P : Text → Prop} {tokens : List Token}
    (h : ∀ token ∈ tokens, ∀ word ∈ token.words, P word) {tree : Tree}
    (htree : ofTokens? tokens = some tree) : ∀ word ∈ tree.words, P word := by
  intro word hword
  have hwords := flatMap_leafWords_ofTokens? tokens
  rw [htree] at hwords
  have hmem : word ∈ tokens.flatMap Token.words := by
    rw [← hwords]
    exact hword
  obtain ⟨token, htoken, hword⟩ := List.mem_flatMap.1 hmem
  exact h token htoken word hword

end TsQuery
