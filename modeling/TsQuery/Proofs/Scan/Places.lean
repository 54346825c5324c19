import Mathlib.Data.List.Induction
import TsQuery.Proofs.Scan.Cut
import TsQuery.Proofs.Scan.Vocabulary
import TsQuery.Proofs.Text.Runs

/-!
# What the tokens of a text are

The tokens of a text can be told without scanning it, by what stands on both sides of a place in the
text (`Query.IsTokenOf`).  A quote begins a phrase if an even number of quotes stands before it and
another one behind it; any other character is inside of a phrase if an odd number of quotes stands
before it and another one behind it, and outside otherwise.  Outside of phrases, each sign is a
token, and so is each maximal run of word characters that spells an operator or has a letter or
digit.  The signs are the five of the grammar, each with its meaning
(`Query.signKind?_eq_some_iff`), and the word characters are all but these, the quote and the blanks
(`Query.isWordChar_iff`).

`Query.Accounts` says that tokens are these and no others, in the order of their places, and that no
two of them overlap; the scan accounts for all of a text in this sense (`Query.accounts_tokens`).
What has a place is a token because the text is cut where it begins (`Query.tokensFrom_append`);
that there are no others follows by induction along the pieces of the text.
-/

namespace TsQuery

/-- What is in a set of code points is in one of its intervals. -/
theorem CharSet.exists_mem_of_contains {set : CharSet} {n : Nat} (h : set.contains n = true) :
    ∃ range ∈ set, range.1 ≤ n ∧ n ≤ range.2 := by
  induction set with
  | nil => cases h
  | cons range rest ih =>
    rw [contains, Bool.and_eq_true, Bool.or_eq_true, decide_eq_true_iff, decide_eq_true_iff] at h
    obtain ⟨hlow, hhigh | hrest⟩ := h
    · exact ⟨range, List.mem_cons_self, hlow, hhigh⟩
    · obtain ⟨found, hfound, hbounds⟩ := ih hrest
      exact ⟨found, List.mem_cons_of_mem range hfound, hbounds⟩

/-- A token takes up a position of its text. -/
def Token.Covers (token : Token) (position : Nat) : Prop :=
  token.position ≤ position ∧ position < token.position + token.text.length

namespace Query

/-! ### Places -/

/-- A maximal run of word characters outside of phrases, between what is before and behind it. -/
structure IsRun (before run after : Text) : Prop where
  nonempty : run ≠ []
  wordChars : ∀ c ∈ run, isWordChar c = true
  begins : ∀ c ∈ before.getLast?, isWordChar c = false
  ends : ∀ c ∈ after.head?, isWordChar c = false
  outside : IsOutside before after

/-- What a run stands for: the operator that it spells in any case, or else a word if it has a
letter or digit. -/
inductive StandsFor (run : Text) : TokenKind → Prop
  | and (spelled : run.lower = ['a', 'n', 'd']) : StandsFor run .and
  | or (spelled : run.lower = ['o', 'r']) : StandsFor run .or
  | not (spelled : run.lower = ['n', 'o', 't']) : StandsFor run .not
  | word (plain : run.lower ∉ Vocabulary.keywords)
      (searchable : ∃ c ∈ run, isAlphanumeric c = true) : StandsFor run .word

/-- The tokens of a text, by the places where they stand. -/
inductive IsTokenOf (text : Text) : Token → Prop
  /-- A quote behind an even number of quotes begins a phrase that the next quote ends.  Its words
  are the maximal runs inside that have a letter or digit. -/
  | phrase {before inside after : Text} {runs : List Text}
      (place : text = before ++ quoteMark :: (inside ++ quoteMark :: after))
      (opens : Even (before.count quoteMark)) (closes : quoteMark ∉ inside)
      (words : inside.HasRuns isWordChar runs) :
      IsTokenOf text
        ⟨.phrase (runs.filter Text.isSearchable), quoteMark :: inside ++ [quoteMark], before.length⟩
  /-- A sign outside of phrases. -/
  | sign {before after : Text} {c : CodePoint} {kind : TokenKind}
      (place : text = before ++ c :: after) (outside : IsOutside before after)
      (means : signKind? c = some kind) : IsTokenOf text ⟨kind, [c], before.length⟩
  /-- A maximal run outside of phrases, unless it stands for nothing. -/
  | run {before run after : Text} {kind : TokenKind} (place : text = before ++ (run ++ after))
      (isRun : IsRun before run after) (means : StandsFor run kind) :
      IsTokenOf text ⟨kind, run, before.length⟩

/-- Tokens account for all of a text. -/
structure Accounts (text : Text) (tokens : List Token) : Prop where
  /-- The tokens are those that the text has. -/
  mem_iff : ∀ token, token ∈ tokens ↔ IsTokenOf text token
  /-- They are in the order of their positions. -/
  rising : tokens.Pairwise fun left right => left.position < right.position
  /-- A token begins where the one before it ends, or later. -/
  apart : tokens.Pairwise fun left right => left.position + left.text.length ≤ right.position
  /-- The text of a token is the part of the text at its position. -/
  slice : ∀ token ∈ tokens, (text.drop token.position).take token.text.length = token.text
  /-- A quote belongs to a token unless it is the last of an odd number of quotes. -/
  quote_iff : ∀ before after, text = before ++ quoteMark :: after →
    ((∃ token ∈ tokens, token.Covers before.length) ↔
      ¬(Even (before.count quoteMark) ∧ quoteMark ∉ after))
  /-- A run that stands for nothing is dropped. -/
  dropped : ∀ before run after, text = before ++ (run ++ after) → IsRun before run after →
    (∀ kind, ¬StandsFor run kind) →
    ∀ token ∈ tokens, ∀ offset < run.length, ¬token.Covers (before.length + offset)
  /-- Every letter and every digit belongs to a token. -/
  alphanumeric : ∀ before c after, text = before ++ c :: after → isAlphanumeric c = true →
    ∃ token ∈ tokens, token.Covers before.length

/-! ### Kinds of runs -/

theorem isSearchable_iff {run : Text} :
    run.isSearchable = true ↔ ∃ c ∈ run, isAlphanumeric c = true :=
  List.any_eq_true

theorem keywordKind?_eq_none_iff {word : Text} :
    keywordKind? word = none ↔ word ∉ Vocabulary.keywords := by
  simp only [Vocabulary.keywords, List.mem_cons, List.not_mem_nil, or_false, not_or]
  constructor
  · intro h
    refine ⟨?_, ?_, ?_⟩
    all_goals
      rintro rfl
      cases h
  · rintro ⟨hand, hor, hnot⟩
    rw [keywordKind?, if_neg hand, if_neg hor, if_neg hnot]

/-- A run that is taken for an operator spells it. -/
theorem standsFor_of_keywordKind? {run : Text} {kind : TokenKind}
    (h : keywordKind? run.lower = some kind) : StandsFor run kind := by
  unfold keywordKind? at h
  split at h
  · next hand =>
    cases h
    exact .and hand
  · split at h
    · next hor =>
      cases h
      exact .or hor
    · split at h
      · next hnot =>
        cases h
        exact .not hnot
      · cases h

/-- A run is taken for what it stands for. -/
theorem wordKind?_eq_some_iff {run : Text} {kind : TokenKind} :
    wordKind? run = some kind ↔ StandsFor run kind := by
  constructor
  · intro h
    unfold wordKind? at h
    split at h
    · next hkeyword =>
      cases h
      exact standsFor_of_keywordKind? hkeyword
    · next hnone =>
      split at h
      · next hsearchable =>
        cases h
        exact .word (keywordKind?_eq_none_iff.1 hnone) (isSearchable_iff.1 hsearchable)
      · cases h
  · intro h
    cases h with
    | and spelled => rw [wordKind?, spelled]; rfl
    | or spelled => rw [wordKind?, spelled]; rfl
    | not spelled => rw [wordKind?, spelled]; rfl
    | word plain searchable =>
      rw [wordKind?, keywordKind?_eq_none_iff.2 plain]
      exact if_pos (isSearchable_iff.2 searchable)

/-- A run with a letter or digit stands for something. -/
theorem exists_standsFor {run : Text} {c : CodePoint} (hc : c ∈ run)
    (halphanumeric : isAlphanumeric c = true) : ∃ kind, StandsFor run kind := by
  cases hkeyword : keywordKind? run.lower with
  | none => exact ⟨.word, .word (keywordKind?_eq_none_iff.1 hkeyword) ⟨c, hc, halphanumeric⟩⟩
  | some kind => exact ⟨kind, standsFor_of_keywordKind? hkeyword⟩

/-! ### Cutting a text at a place -/

/-- A piece without quotes changes nothing about what is outside of phrases. -/
theorem isOutside_append_right_iff {left piece right : Text} (h : quoteMark ∉ piece) :
    IsOutside left (piece ++ right) ↔ IsOutside left right := by
  rw [IsOutside, IsOutside, List.mem_append, not_or, and_iff_right h]

theorem isOutside_append_left_iff {left piece right : Text} (h : quoteMark ∉ piece) :
    IsOutside (left ++ piece) right ↔ IsOutside left right := by
  rw [IsOutside, IsOutside, List.count_append, List.count_eq_zero.2 h, Nat.add_zero]

/-- A text is cut before a sign outside of phrases. -/
theorem isCut_sign {left right : Text} {c : CodePoint} {kind : TokenKind}
    (hkind : signKind? c = some kind) (houtside : IsOutside left right) :
    IsCut left (c :: right) := by
  have hquote : quoteMark ∉ [c] :=
    fun hmem => ne_quoteMark_of_signKind? hkind (List.mem_singleton.1 hmem).symm
  have hbefore : IsOutside left ([c] ++ right) :=
    (isOutside_append_right_iff hquote).2 houtside
  exact isCut_cons (isWordChar_of_signKind? hkind) hbefore

namespace IsRun

variable {before run after : Text}

theorem isCut_left (h : IsRun before run after) : IsCut before (run ++ after) where
  outside := (isOutside_append_right_iff (quoteMark_notMem_run h.wordChars)).2 h.outside
  endsRun last hlast hword := by
    rw [h.begins last hlast] at hword
    cases hword

/-- The tokens of a text with a run are those before it, that of the run, if it stands for anything,
and those behind it. -/
theorem tokens_eq (h : IsRun before run after) :
    tokens (before ++ (run ++ after)) =
      tokens before ++ ((wordKind? run).toList.map (⟨·, run, before.length⟩) ++
        tokensFrom (before.length + run.length) after) := by
  rw [tokens_append h.isCut_left, tokensFrom_run h.nonempty h.wordChars h.ends]

end IsRun

/-! ### What has a place is a token -/

theorem mem_tokens_of_isTokenOf {text : Text} {token : Token} (h : IsTokenOf text token) :
    token ∈ tokens text := by
  cases h with
  | @phrase before inside after runs place opens closes words =>
    have hcut : IsCut before (quoteMark :: (inside ++ quoteMark :: after)) :=
      isCut_cons isWordChar_quoteMark (Or.inl opens)
    rw [place, tokens_append hcut, tokensFrom_phrase closes, phraseWords, Text.hasRuns_iff.1 words]
    exact List.mem_append_right _ List.mem_cons_self
  | @sign before after c kind place outside means =>
    rw [place, tokens_append (isCut_sign means outside), tokensFrom_sign means]
    exact List.mem_append_right _ List.mem_cons_self
  | @run before run after kind place isRun means =>
    rw [place, isRun.tokens_eq, wordKind?_eq_some_iff.2 means]
    exact List.mem_append_right _ List.mem_cons_self

/-! ### What is a token has its place -/

/-- A text that is cut before a piece is cut behind it, too, if the quotes of the piece pair up or
none follows, and if no run goes on there. -/
theorem IsCut.behind {front piece rest : Text} (h : IsCut front (piece ++ rest)) (hne : piece ≠ [])
    (hquotes : Even (piece.count quoteMark) ∨ quoteMark ∉ rest) (hends : EndsRun piece rest) :
    IsCut (front ++ piece) rest where
  outside := by
    rcases h.outside with heven | hnone
    · refine hquotes.imp_left fun hpiece => ?_
      rw [List.count_append]
      exact heven.add hpiece
    · exact Or.inr fun hmem => hnone (List.mem_append_right piece hmem)
  endsRun last hlast := by
    refine hends last ?_
    rwa [List.getLast?_append_of_ne_nil _ hne] at hlast

/-- A piece that ends with a character of no word ends a run. -/
theorem endsRun_concat {c : CodePoint} (hc : isWordChar c = false) (piece rest : Text) :
    EndsRun (piece ++ [c]) rest := by
  intro last hlast hword
  rw [List.getLast?_concat] at hlast
  cases hlast
  rw [hc] at hword
  cases hword

/-- A text that is cut before a character of no word is cut behind it, too, unless that is a quote
with another one to come. -/
theorem IsCut.behind_character {front : Text} {c : CodePoint} {rest : Text}
    (h : IsCut front (c :: rest)) (hc : isWordChar c = false)
    (hquote : c ≠ quoteMark ∨ quoteMark ∉ rest) : IsCut (front ++ [c]) rest :=
  IsCut.behind h (List.cons_ne_nil _ _) (hquote.imp_left even_count_quoteMark_singleton)
    (endsRun_concat hc [] rest)

/-- What has its place in the rest of a text, behind a piece, has it in the text. -/
theorem isTokenOf_behind {front piece rest : Text} {token : Token}
    (h : ∀ {front : Text}, IsCut front rest → token ∈ tokensFrom front.length rest →
      IsTokenOf (front ++ rest) token)
    (hcut : IsCut (front ++ piece) rest)
    (htoken : token ∈ tokensFrom (front.length + piece.length) rest) :
    IsTokenOf (front ++ (piece ++ rest)) token := by
  rw [← List.append_assoc]
  refine h hcut ?_
  rwa [List.length_append]

/-- What is cut from a text behind a cut has its place in the text. -/
theorem isTokenOf_of_mem {front text : Text} (h : IsCut front text) {token : Token}
    (htoken : token ∈ tokensFrom front.length text) : IsTokenOf (front ++ text) token := by
  induction text using cut_induction generalizing front with
  | nil =>
    rw [tokensFrom] at htoken
    cases htoken
  | phrase inside rest hinside ih =>
    have hopens : Even (front.count quoteMark) :=
      h.outside.resolve_right (not_not_intro List.mem_cons_self)
    rw [tokensFrom_phrase hinside] at htoken
    rcases List.mem_cons.1 htoken with rfl | htoken
    · exact .phrase rfl hopens hinside (Text.hasRuns_iff.2 rfl)
    · have htext : quoteMark :: (inside ++ quoteMark :: rest) =
          quoteMark :: inside ++ [quoteMark] ++ rest := by
        rw [List.append_assoc]
        rfl
      have hcut : IsCut (front ++ (quoteMark :: inside ++ [quoteMark])) rest :=
        IsCut.behind (htext ▸ h) (List.cons_ne_nil _ _)
          (Or.inl (even_count_quoteMark_phrase hinside)) (endsRun_concat isWordChar_quoteMark _ _)
      rw [htext]
      refine isTokenOf_behind ih hcut ?_
      rwa [List.length_append, List.length_cons]
  | stray rest hrest ih =>
    rw [tokensFrom_stray hrest] at htoken
    exact isTokenOf_behind ih (h.behind_character isWordChar_quoteMark (Or.inr hrest)) htoken
  | sign c kind rest hkind ih =>
    have hcut := h.behind_character (isWordChar_of_signKind? hkind)
      (Or.inl (ne_quoteMark_of_signKind? hkind))
    rw [tokensFrom_sign hkind] at htoken
    rcases List.mem_cons.1 htoken with rfl | htoken
    · exact .sign rfl (h.outside.imp_right fun hnone hmem => hnone (List.mem_cons_of_mem c hmem))
        hkind
    · exact isTokenOf_behind ih hcut htoken
  | blank c rest hblank ih =>
    have hcut := h.behind_character (isWordChar_of_isBlank hblank)
      (Or.inl (ne_quoteMark_of_isBlank hblank))
    rw [tokensFrom_blank hblank] at htoken
    exact isTokenOf_behind ih hcut htoken
  | run run rest hne hrun hrest ih =>
    have hcut : IsCut (front ++ run) rest :=
      h.behind hne (Or.inl (even_count_quoteMark_run hrun)) fun _ _ _ => hrest
    rw [tokensFrom_run hne hrun hrest] at htoken
    rcases List.mem_append.1 htoken with htoken | htoken
    · obtain ⟨kind, hkind, rfl⟩ := List.mem_map.1 htoken
      refine .run rfl ⟨hne, hrun, ?_, hrest, ?_⟩
        (wordKind?_eq_some_iff.1 (Option.mem_toList.1 hkind))
      · -- A word character at the end of the front would belong to the run.
        intro last hlast
        rw [← Bool.not_eq_true]
        intro hword
        have hhead := h.endsRun last hlast hword (run.head hne)
          (by rw [List.head?_append_of_ne_nil _ hne]; exact List.head?_eq_some_head hne)
        rw [hrun _ (List.head_mem hne)] at hhead
        cases hhead
      · exact (isOutside_append_right_iff (quoteMark_notMem_run hrun)).1 h.outside
    · exact isTokenOf_behind ih hcut htoken

/-- The tokens of a text are those that have a place in it. -/
theorem mem_tokens_iff {text : Text} {token : Token} :
    token ∈ tokens text ↔ IsTokenOf text token := by
  constructor
  · intro h
    have hstart : IsCut [] text := ⟨Or.inl (by decide), nofun⟩
    exact isTokenOf_of_mem hstart h
  · exact mem_tokens_of_isTokenOf

/-! ### Order -/

/-- A token takes up positions of the text that it is cut from. -/
theorem bounds_of_mem_tokensFrom {position : Nat} {text : Text} {token : Token}
    (h : token ∈ tokensFrom position text) :
    position ≤ token.position ∧
      token.position + token.text.length ≤ position + text.length := by
  induction text using cut_induction generalizing position with
  | nil =>
    rw [tokensFrom] at h
    cases h
  | phrase inside rest hinside ih =>
    rw [tokensFrom_phrase hinside] at h
    simp only [List.length_cons, List.length_append]
    rcases List.mem_cons.1 h with rfl | h
    · simp only [List.length_cons, List.length_append, List.length_nil]
      omega
    · have := ih h
      omega
  | stray rest hrest ih =>
    rw [tokensFrom_stray hrest] at h
    have := ih h
    rw [List.length_cons]
    omega
  | sign c kind rest hkind ih =>
    rw [tokensFrom_sign hkind] at h
    rw [List.length_cons]
    rcases List.mem_cons.1 h with rfl | h
    · simp only [List.length_singleton]
      omega
    · have := ih h
      omega
  | blank c rest hblank ih =>
    rw [tokensFrom_blank hblank] at h
    have := ih h
    rw [List.length_cons]
    omega
  | run run rest hne hrun hrest ih =>
    rw [tokensFrom_run hne hrun hrest] at h
    rw [List.length_append]
    rcases List.mem_append.1 h with h | h
    · obtain ⟨kind, -, rfl⟩ := List.mem_map.1 h
      simp only
      omega
    · have := ih h
      omega

/-- A token that begins behind the beginning of another one, and where that ends or later. -/
def Follows (left right : Token) : Prop :=
  left.position < right.position ∧ left.position + left.text.length ≤ right.position

/-- Tokens that are cut from a text behind a token follow it. -/
theorem follows_of_mem_tokensFrom {first : Token} (hne : first.text ≠ []) {position : Nat}
    (hends : first.position + first.text.length ≤ position) {rest : Text} {token : Token}
    (h : token ∈ tokensFrom position rest) : Follows first token := by
  have hlength := List.length_pos_iff.2 hne
  have hbounds := bounds_of_mem_tokensFrom h
  exact ⟨by omega, by omega⟩

/-- Each token of a text follows all before it. -/
theorem pairwise_tokensFrom (position : Nat) (text : Text) :
    (tokensFrom position text).Pairwise Follows := by
  induction text using cut_induction generalizing position with
  | nil =>
    rw [tokensFrom]
    exact List.Pairwise.nil
  | phrase inside rest hinside ih =>
    rw [tokensFrom_phrase hinside]
    refine List.pairwise_cons.2 ⟨fun token htoken => ?_, ih _⟩
    refine follows_of_mem_tokensFrom (List.cons_ne_nil _ _) ?_ htoken
    simp only [List.length_append, List.length_cons, List.length_nil]
    omega
  | stray rest hrest ih =>
    rw [tokensFrom_stray hrest]
    exact ih _
  | sign c kind rest hkind ih =>
    rw [tokensFrom_sign hkind]
    refine List.pairwise_cons.2 ⟨fun token htoken => ?_, ih _⟩
    exact follows_of_mem_tokensFrom (List.cons_ne_nil _ _) le_rfl htoken
  | blank c rest hblank ih =>
    rw [tokensFrom_blank hblank]
    exact ih _
  | run run rest hne hrun hrest ih =>
    rw [tokensFrom_run hne hrun hrest]
    cases wordKind? run with
    | none => exact ih _
    | some kind =>
      refine List.pairwise_cons.2 ⟨fun token htoken => ?_, ih _⟩
      exact follows_of_mem_tokensFrom hne le_rfl htoken

/-- The text of a token is the part of the text at its position. -/
theorem take_drop_of_isTokenOf {text : Text} {token : Token} (h : IsTokenOf text token) :
    (text.drop token.position).take token.text.length = token.text := by
  have hslice (before piece after : Text) :
      ((before ++ (piece ++ after)).drop before.length).take piece.length = piece := by
    rw [List.drop_left, List.take_left]
  cases h with
  | @phrase before inside after runs place opens closes words =>
    have hpiece := hslice before (quoteMark :: inside ++ [quoteMark]) after
    rw [List.append_assoc] at hpiece
    rw [place]
    exact hpiece
  | @sign before after c kind place outside means =>
    rw [place]
    exact hslice before [c] after
  | @run before run after kind place isRun means =>
    rw [place]
    exact hslice before run after

/-! ### Coverage -/

/-- The last quote of a text. -/
theorem exists_last_quote {text : Text} (h : quoteMark ∈ text) :
    ∃ first inside, text = first ++ quoteMark :: inside ∧ quoteMark ∉ inside := by
  obtain ⟨later, earlier, hreverse, hlater⟩ := List.eq_append_cons_of_mem (List.mem_reverse.2 h)
  refine ⟨earlier.reverse, later.reverse, ?_, fun hmem => hlater (List.mem_reverse.1 hmem)⟩
  rw [← List.reverse_reverse text, hreverse, List.reverse_append, List.reverse_cons,
    List.append_assoc, List.singleton_append]

/-- A quote that begins a phrase, what is inside and the quote that ends it belong to one token. -/
theorem exists_covers_of_phrase {text before inside after : Text}
    (htext : text = before ++ quoteMark :: (inside ++ quoteMark :: after))
    (hopens : Even (before.count quoteMark)) (hcloses : quoteMark ∉ inside) {offset : Nat}
    (hoffset : offset ≤ inside.length + 1) :
    ∃ token ∈ tokens text, token.Covers (before.length + offset) := by
  refine ⟨_, mem_tokens_iff.2 (.phrase htext hopens hcloses (Text.hasRuns_iff.2 rfl)), ?_⟩
  rw [Token.Covers]
  simp only [List.length_append, List.length_cons, List.length_nil]
  omega

/-- What is behind an odd number of quotes belongs to a token if the next quote is still to come. -/
theorem exists_covers_of_odd {text before piece after : Text}
    (htext : text = before ++ (piece ++ quoteMark :: after))
    (hopens : ¬Even (before.count quoteMark)) (hcloses : quoteMark ∉ piece) {offset : Nat}
    (hoffset : offset ≤ piece.length) :
    ∃ token ∈ tokens text, token.Covers (before.length + offset) := by
  have hmem : quoteMark ∈ before := by
    by_contra hnone
    rw [List.count_eq_zero.2 hnone] at hopens
    exact hopens Even.zero
  obtain ⟨first, inside, rfl, hinside⟩ := exists_last_quote hmem
  have hfirst : Even (first.count quoteMark) := by
    rw [List.count_append, List.count_cons_self, List.count_eq_zero.2 hinside, zero_add,
      Nat.even_add_one, not_not] at hopens
    exact hopens
  have hplace : text = first ++ quoteMark :: (inside ++ piece ++ quoteMark :: after) := by
    rw [htext]
    simp only [List.append_assoc, List.cons_append]
  have hnone : quoteMark ∉ inside ++ piece := by
    rw [List.mem_append]
    exact not_or_intro hinside hcloses
  have hcovers : ∃ token ∈ tokens text,
      token.Covers (first.length + (inside.length + 1 + offset)) :=
    exists_covers_of_phrase hplace hfirst hnone (by rw [List.length_append]; omega)
  rwa [List.length_append, List.length_cons, Nat.add_assoc]

/-- Nothing is covered by the tokens before a place that begins there, or by those behind it that
ends there. -/
theorem not_covers_of_lt {text : Text} {position : Nat} {token : Token}
    (htoken : token ∈ tokensFrom position text) {place : Nat} (hplace : place < position) :
    ¬token.Covers place := by
  have hbounds := bounds_of_mem_tokensFrom htoken
  rintro ⟨hle, -⟩
  omega

theorem not_covers_of_ge {text : Text} {token : Token} (htoken : token ∈ tokens text) {place : Nat}
    (hplace : text.length ≤ place) : ¬token.Covers place := by
  have hbounds := bounds_of_mem_tokensFrom htoken
  rintro ⟨-, hlt⟩
  omega

/-- A quote belongs to a token unless it is the last of an odd number. -/
theorem exists_covers_quote_iff (before after : Text) :
    (∃ token ∈ tokens (before ++ quoteMark :: after), token.Covers before.length) ↔
      ¬(Even (before.count quoteMark) ∧ quoteMark ∉ after) := by
  constructor
  · rintro ⟨token, htoken, hcovers⟩ ⟨heven, hnone⟩
    rw [tokens_append (isCut_cons isWordChar_quoteMark (Or.inl heven)), tokensFrom_stray hnone]
      at htoken
    rcases List.mem_append.1 htoken with htoken | htoken
    · exact not_covers_of_ge htoken le_rfl hcovers
    · exact not_covers_of_lt htoken (Nat.lt_succ_self _) hcovers
  · intro h
    by_cases heven : Even (before.count quoteMark)
    · have hmem : quoteMark ∈ after := by
        by_contra hnone
        exact h ⟨heven, hnone⟩
      obtain ⟨inside, later, rfl, hinside⟩ := List.eq_append_cons_of_mem hmem
      exact exists_covers_of_phrase rfl heven hinside (Nat.zero_le _)
    · have hplace : before ++ quoteMark :: after = before ++ ([] ++ quoteMark :: after) := rfl
      exact exists_covers_of_odd hplace heven List.not_mem_nil le_rfl

/-- A run that stands for nothing is dropped. -/
theorem IsRun.not_covers {before run after : Text} (h : IsRun before run after)
    (hnothing : ∀ kind, ¬StandsFor run kind) {token : Token}
    (htoken : token ∈ tokens (before ++ (run ++ after))) {offset : Nat}
    (hoffset : offset < run.length) : ¬token.Covers (before.length + offset) := by
  have hnone : wordKind? run = none := by
    refine Option.eq_none_iff_forall_ne_some.2 fun kind hkind => ?_
    exact hnothing kind (wordKind?_eq_some_iff.1 hkind)
  rw [h.tokens_eq, hnone] at htoken
  rcases List.mem_append.1 htoken with htoken | htoken
  · exact not_covers_of_ge htoken (Nat.le_add_right _ _)
  · exact not_covers_of_lt htoken (Nat.add_lt_add_left hoffset _)

/-- No letter and no digit is blank. -/
theorem isBlank_of_isAlphanumeric {c : CodePoint} (h : isAlphanumeric c = true) :
    isBlank c = false := by
  have hblanks : ∀ range ∈ blankSet, ∀ n ∈ List.range' range.1 (range.2 + 1 - range.1),
      alphanumericSet.contains n = false := by decide +kernel
  rw [← Bool.not_eq_true]
  intro hblank
  obtain ⟨range, hrange, hlow, hhigh⟩ := CharSet.exists_mem_of_contains hblank
  have hmem : c.toNat ∈ List.range' range.1 (range.2 + 1 - range.1) := by
    rw [List.mem_range'_1]
    omega
  rw [isAlphanumeric, hblanks range hrange _ hmem] at h
  cases h

theorem isWordChar_of_isAlphanumeric {c : CodePoint} (h : isAlphanumeric c = true) :
    isWordChar c = true := by
  have hsigns : ∀ sign ∈ quoteMark :: grammarSigns, isAlphanumeric sign = false := by decide
  have hplain : c ∉ quoteMark :: grammarSigns := by
    intro hmem
    rw [hsigns c hmem] at h
    cases h
  exact isWordChar_iff.2 ⟨isBlank_of_isAlphanumeric h, hplain⟩

/-- The word characters at the end of a text. -/
theorem exists_run_at_end (text : Text) :
    ∃ before run, text = before ++ run ∧ (∀ c ∈ run, isWordChar c = true) ∧
      ∀ c ∈ before.getLast?, isWordChar c = false := by
  induction text using List.reverseRecOn with
  | nil => exact ⟨[], [], rfl, nofun, nofun⟩
  | append_singleton text c ih =>
    cases hc : isWordChar c with
    | false =>
      refine ⟨text ++ [c], [], (List.append_nil _).symm, nofun, ?_⟩
      rw [List.getLast?_concat]
      rintro _ ⟨⟩
      exact hc
    | true =>
      obtain ⟨before, run, rfl, hrun, hbefore⟩ := ih
      refine ⟨before, run ++ [c], List.append_assoc .., ?_, hbefore⟩
      exact List.forall_mem_append.2 ⟨hrun, List.forall_mem_singleton.2 hc⟩

/-- The word characters at the beginning of a text. -/
theorem exists_run_at_beginning (text : Text) :
    ∃ run after, text = run ++ after ∧ (∀ c ∈ run, isWordChar c = true) ∧
      ∀ c ∈ after.head?, isWordChar c = false := by
  refine ⟨text.takeWhile isWordChar, text.dropWhile isWordChar,
    List.takeWhile_append_dropWhile.symm, fun c hc => List.mem_takeWhile_imp hc, fun c hc => ?_⟩
  have hhead := List.head?_dropWhile_not isWordChar text
  rwa [Option.mem_def.1 hc] at hhead

/-- A word character outside of phrases belongs to a run. -/
theorem exists_isRun {before after : Text} {c : CodePoint} (hc : isWordChar c = true)
    (houtside : IsOutside before after) :
    ∃ earlier first later rest, before = earlier ++ first ∧ after = later ++ rest ∧
      IsRun earlier (first ++ c :: later) rest := by
  obtain ⟨earlier, first, rfl, hfirst, hbegins⟩ := exists_run_at_end before
  obtain ⟨later, rest, rfl, hlater, hends⟩ := exists_run_at_beginning after
  refine ⟨earlier, first, later, rest, rfl, rfl, ?_, ?_, hbegins, hends, ?_⟩
  · exact List.append_ne_nil_of_right_ne_nil _ (List.cons_ne_nil c later)
  · exact List.forall_mem_append.2 ⟨hfirst, List.forall_mem_cons.2 ⟨hc, hlater⟩⟩
  · rwa [isOutside_append_left_iff (quoteMark_notMem_run hfirst),
      isOutside_append_right_iff (quoteMark_notMem_run hlater)] at houtside

/-- A letter or digit belongs to a token. -/
theorem exists_covers_alphanumeric (before : Text) {c : CodePoint} (after : Text)
    (hc : isAlphanumeric c = true) :
    ∃ token ∈ tokens (before ++ c :: after), token.Covers before.length := by
  have hword := isWordChar_of_isAlphanumeric hc
  by_cases houtside : IsOutside before after
  · obtain ⟨earlier, first, later, rest, rfl, rfl, hrun⟩ := exists_isRun hword houtside
    have hmem : c ∈ first ++ c :: later := List.mem_append_right first List.mem_cons_self
    obtain ⟨kind, hkind⟩ := exists_standsFor hmem hc
    have hplace : earlier ++ first ++ c :: (later ++ rest) =
        earlier ++ (first ++ c :: later ++ rest) := by
      simp only [List.append_assoc, List.cons_append]
    refine ⟨_, mem_tokens_iff.2 (.run hplace hrun hkind), ?_⟩
    rw [Token.Covers]
    simp only [List.length_append, List.length_cons]
    omega
  · rw [IsOutside, not_or, not_not] at houtside
    obtain ⟨inside, later, rfl, hinside⟩ := List.eq_append_cons_of_mem houtside.2
    have hnone : quoteMark ∉ c :: inside := by
      refine List.not_mem_cons_of_ne_of_not_mem ?_ hinside
      rintro rfl
      rw [isWordChar_quoteMark] at hword
      cases hword
    have hplace : before ++ c :: (inside ++ quoteMark :: later) =
        before ++ (c :: inside ++ quoteMark :: later) := rfl
    exact exists_covers_of_odd hplace houtside.1 hnone (Nat.zero_le _)

/-- The scan of a text accounts for all of it. -/
theorem accounts_tokens (text : Text) : Accounts text (tokens text) where
  mem_iff _ := mem_tokens_iff
  rising := (pairwise_tokensFrom 0 text).imp And.left
  apart := (pairwise_tokensFrom 0 text).imp And.right
  slice _ htoken := take_drop_of_isTokenOf (mem_tokens_iff.1 htoken)
  quote_iff before after htext := by
    rw [htext]
    exact exists_covers_quote_iff before after
  dropped before run after htext hrun hnothing token htoken offset hoffset := by
    rw [htext] at htoken
    exact hrun.not_covers hnothing htoken hoffset
  alphanumeric before c after htext hc := by
    rw [htext]
    exact exists_covers_alphanumeric before after hc

end Query

end TsQuery
