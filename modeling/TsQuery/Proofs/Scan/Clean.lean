import TsQuery.Proofs.Assembly.Invariant
import TsQuery.Proofs.Scan.Words
import TsQuery.Proofs.Text.Replace

/-!
# Clean queries

Cleaning leaves no control character and no noise behind, so that a word that is cut from a clean
text survives being cleaned again (`Query.IsCleanWord`).  The tree of a clean query is canonical,
its phrases are no terms, and its words are clean ones (`Query.isClean_tree?`).  A text without
control characters and without the signs that the names of languages end in is cleaned character by
character (`Query.clean_eq_blankNoise`).
-/

namespace TsQuery

namespace Query

/-! ### Clean texts -/

/-- The spelled names of languages hold letters only, so that all else comes from the text. -/
theorem mem_of_mem_spellLanguages {text : Text} {c : CodePoint} (h : c ∈ spellLanguages text) :
    c ∈ text ∨ c ∈ ("cplusplus" ++ "csharp" ++ "fsharp" : Text) := by
  rw [List.mem_append, List.mem_append]
  rcases Text.mem_of_mem_replace h with h | h
  · rcases Text.mem_of_mem_replace h with h | h
    · exact (Text.mem_of_mem_replace h).imp_right fun h => .inl (.inl h)
    · exact .inr (.inl (.inr h))
  · exact .inr (.inr h)

/-- A clean text has no control character left. -/
theorem isControl_of_mem_clean {text : Text} {c : CodePoint} (h : c ∈ clean text) :
    isControl c = false := by
  obtain ⟨d, hd, rfl⟩ := List.mem_map.1 h
  split
  · decide
  · rcases mem_of_mem_spellLanguages hd with hd | hd
    · exact Bool.not_eq_true' _ ▸ (List.mem_filter.1 hd).2
    · have hnames : ∀ d ∈ ("cplusplus" ++ "csharp" ++ "fsharp" : Text), isControl d = false := by
        decide
      exact hnames d hd

/-- A text without control characters and without the signs that names of languages end in is clean
once its noise is blank. -/
theorem clean_eq_blankNoise {text : Text} (hcontrol : ∀ c ∈ text, isControl c = false)
    (hplus : (.char '+') ∉ text) (hsharp : (.char '#') ∉ text) : clean text = blankNoise text := by
  have hdrop : dropControls text = text := by
    rw [dropControls, List.filter_eq_self]
    intro c hc
    rw [hcontrol c hc, Bool.not_false]
  have hspell : spellLanguages text = text := by
    rw [spellLanguages]
    rw [Text.replace_eq_self (.char '+') (by decide) (by decide) hplus,
      Text.replace_eq_self (.char '#') (by decide) (by decide) hsharp,
      Text.replace_eq_self (.char '#') (by decide) (by decide) hsharp]
  rw [clean, hdrop, hspell]

/-! ### Clean words -/

/-- A word that cleaning leaves as it is and that a search can look for. -/
structure IsCleanWord (word : Text) : Prop where
  searchable : word.isSearchable = true
  isWordChar : ∀ c ∈ word, isWordChar c = true
  isNoise : ∀ c ∈ word, isNoise c = false
  isControl : ∀ c ∈ word, isControl c = false

theorem IsCleanWord.ne_nil {word : Text} (h : IsCleanWord word) : word ≠ [] := by
  rintro rfl
  exact absurd h.searchable (by decide)

/-- A clean word is an operand of the notation of compiled queries. -/
theorem IsCleanWord.isOperandWord {word : Text} (h : IsCleanWord word) :
    Notation.IsOperandWord word :=
  ⟨h.ne_nil, fun c hc => isOperandChar_of_isWordChar (h.isWordChar c hc) (h.isNoise c hc)⟩

/-- What holds of every phrase, of every sign and of every run that is a token holds of every token
of a text. -/
theorem forall_tokensFrom {P : Token → Prop}
    (hphrase : ∀ inside text position, P ⟨.phrase (phraseWords inside), text, position⟩)
    (hsign : ∀ c kind position, signKind? c = some kind → P ⟨kind, [c], position⟩)
    (hrun : ∀ run kind position, wordKind? run = some kind → P ⟨kind, run, position⟩)
    (position : Nat) (text : Text) : ∀ token ∈ tokensFrom position text, P token := by
  fun_induction tokensFrom position text with
  | case1 => exact fun token htoken => absurd htoken List.not_mem_nil
  | case2 position text inside rest _ ih =>
    exact List.forall_mem_cons.2 ⟨hphrase inside _ position, ih⟩
  | case3 position text _ ih => exact ih
  | case4 position c text _ kind hkind ih =>
    exact List.forall_mem_cons.2 ⟨hsign c kind position hkind, ih⟩
  | case5 position c text _ _ _ ih => exact ih
  | case6 position c text _ _ _ run ih =>
    refine List.forall_mem_append.2 ⟨fun token htoken => ?_, ih⟩
    obtain ⟨kind, hkind, rfl⟩ := List.mem_map.1 htoken
    exact hrun run kind position (Option.mem_toList.1 hkind)

/-- The words of a token can be searched for. -/
theorem isSearchable_of_mem_tokens {text : Text} {token : Token} (htoken : token ∈ tokens text) :
    ∀ word ∈ token.words, word.isSearchable = true := by
  refine forall_tokensFrom (P := fun token => ∀ word ∈ token.words, word.isSearchable = true)
    ?_ ?_ ?_ 0 text token htoken
  · intro inside _ _ word hword
    exact (List.mem_filter.1 hword).2
  · intro c kind position hkind word hword
    rw [words_of_signKind? hkind] at hword
    cases hword
  · intro run kind position hkind word hword
    obtain rfl := words_of_wordKind? hkind position word hword
    unfold wordKind? at hkind
    split at hkind
    · next hkeyword =>
      cases hkind
      rcases keywordKind?_eq_some hkeyword with rfl | rfl | rfl
      all_goals cases hword
    · split at hkind
      · next hsearchable => exact hsearchable
      · cases hkind

/-- The words of the tokens of a clean text are clean. -/
theorem isCleanWord_of_mem_tokens {text : Text} {token : Token}
    (htoken : token ∈ tokens (clean text)) {word : Text} (hword : word ∈ token.words) :
    IsCleanWord word := by
  obtain ⟨-, hchars⟩ := isWordOf_of_mem_tokensFrom htoken word hword
  exact {
    searchable := isSearchable_of_mem_tokens htoken word hword
    isWordChar := fun c hc => (hchars c hc).1
    isNoise := fun c hc => isNoise_of_mem_clean (hchars c hc).2
    isControl := fun c hc => isControl_of_mem_clean (hchars c hc).2 }

end Query

/-! ### Trees of clean queries -/

/-- A tree that a clean query can stand for. -/
structure Tree.IsClean (tree : Tree) : Prop where
  canonical : tree.IsCanonical
  two_le_of_phrase : ∀ words, .phrase words ∈ tree.leaves → 2 ≤ words.length
  word : ∀ word ∈ tree.words, Query.IsCleanWord word

/-- The words of a clean tree are operands of the notation of compiled queries. -/
theorem Tree.IsClean.isOperandWord {tree : Tree} (h : tree.IsClean) :
    ∀ word ∈ tree.words, Notation.IsOperandWord word :=
  fun word hword => (h.word word hword).isOperandWord

/-- The tree of a clean text is clean. -/
theorem Query.isClean_tree? {text : Text} {tree : Tree} (h : tree? (clean text) = some tree) :
    tree.IsClean where
  canonical := Tree.isCanonical_of_mem_ofTokens? tree h
  two_le_of_phrase words hwords := by
    have hleaves : .phrase words ∈ Tree.leavesOption (tree? (clean text)) := by rwa [h]
    exact Tree.two_le_of_phrase_mem hleaves
  word := Tree.forall_words_ofTokens? (fun _ htoken _ => isCleanWord_of_mem_tokens htoken) h

end TsQuery
