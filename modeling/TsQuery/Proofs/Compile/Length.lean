import Mathlib
import TsQuery.Proofs.Assembly.Width
import TsQuery.Proofs.Scan.Cut
import TsQuery.Proofs.Scan.OnePass
import TsQuery.Query.Compile
import TsQuery.Settings.Basic

/-!
# How long a compiled text can be

A compiled text is at most four times as long as the query (`Query.compile_length_le`).  The clean
text of the query stands between the two: a character of it that is in no word is worth four
characters, and a word is worth two more than it has (`Query.worth`).  A query of which each
character is worth four is worth no less than that, since even the name of a language that is
spelled in letters becomes no more than two characters shorter than four times the name
(`Query.worth_clean_le`).  And the clean text pays for its tokens but for one character
(`Query.sum_width_tokensFrom_le`): a word takes up three more than it has, and whatever parts it
from the next word is worth the third.
-/

namespace TsQuery

/-! ### What tokens take up -/

namespace Token

/-- A phrase takes up its words with a sign between each two, its parentheses and another sign. -/
theorem width_phrase_le (words : List Text) (text : Text) (position : Nat) :
    Token.width ⟨.phrase words, text, position⟩ ≤
      (words.map fun word => word.length + 5).sum + 3 := by
  rcases words with _ | ⟨word, _ | ⟨next, more⟩⟩
  · exact Nat.le_refl _
  · change word.length + 0 + 3 ≤ word.length + 5 + 0 + 3
    omega
  · have hjoined : (Text.joined [' ', '<', '-', '>', ' '] (word :: next :: more)).length + 5 =
        ((word :: next :: more).map fun word => word.length + 5).sum :=
      Text.length_joined _ (List.cons_ne_nil word (next :: more))
    change (Tree.phrase (word :: next :: more)).render.length + 0 + 3 ≤ _
    rw [Tree.render, Tree.length_grouped]
    omega

/-- A run of word characters takes up three more than it has. -/
theorem sum_width_wordKind?_le (run : Text) (position : Nat) :
    (((Query.wordKind? run).toList.map (⟨·, run, position⟩)).map Token.width).sum ≤
      run.length + 3 := by
  cases hkind : Query.wordKind? run with
  | none => exact Nat.zero_le _
  | some kind =>
    rcases Query.wordKind?_eq_some hkind with rfl | rfl | rfl | rfl
    · change run.length + 0 + 3 + 0 ≤ _
      omega
    all_goals exact Nat.le_add_left 3 _

end Token

namespace Query

/-! ### What a clean text is worth -/

/-- How many characters a clean text is worth, given whether a word goes on in it: four for a
character in no word, and for a word two more than it has. -/
def worth (inWord : Bool) : Text → Nat
  | [] => 0
  | c :: text =>
    (if isWordChar c then if inWord then 1 else 3 else 4) + worth (isWordChar c) text

/-- A character is worth four at most, whatever stands before it. -/
theorem worth_cons_le (inWord : Bool) (c : CodePoint) (text : Text) :
    worth inWord (c :: text) ≤ 4 + worth (isWordChar c) text := by
  rw [worth]
  split
  · split
    · omega
    · omega
  · omega

theorem worth_cons_of_isWordChar_eq_false {c : CodePoint} (h : isWordChar c = false) (inWord : Bool)
    (text : Text) : worth inWord (c :: text) = 4 + worth false text := by
  rw [worth, h, if_neg (by decide)]

theorem worth_append_cons {c : CodePoint} (h : isWordChar c = false) (inWord : Bool)
    (left right : Text) :
    worth inWord (left ++ c :: right) = worth inWord left + 4 + worth false right := by
  induction left generalizing inWord with
  | nil => rw [List.nil_append, worth_cons_of_isWordChar_eq_false h, worth, Nat.zero_add]
  | cons d left ih =>
    rw [List.cons_append, worth, worth, ih, Nat.add_assoc, Nat.add_assoc, Nat.add_assoc]

theorem worth_append_of_inWord {run : Text} (h : ∀ c ∈ run, isWordChar c = true) (rest : Text) :
    worth true (run ++ rest) = run.length + worth true rest := by
  induction run with
  | nil => rw [List.nil_append, List.length_nil, Nat.zero_add]
  | cons c run ih =>
    obtain ⟨hc, hrun⟩ := List.forall_mem_cons.1 h
    rw [List.cons_append, worth, hc, if_pos rfl, if_pos rfl, ih hrun, List.length_cons]
    omega

/-- A word is worth two more than it has. -/
theorem worth_append_run {run rest : Text} (hne : run ≠ []) (hrun : ∀ c ∈ run, isWordChar c = true)
    (hrest : ∀ c ∈ rest.head?, isWordChar c = false) :
    worth false (run ++ rest) = run.length + 2 + worth false rest := by
  obtain ⟨c, more, rfl⟩ := List.exists_cons_of_ne_nil hne
  obtain ⟨hc, hmore⟩ := List.forall_mem_cons.1 hrun
  have hgoes : worth true rest = worth false rest := by
    cases rest with
    | nil => rfl
    | cons d rest =>
      rw [worth_cons_of_isWordChar_eq_false (hrest d rfl),
        worth_cons_of_isWordChar_eq_false (hrest d rfl)]
  rw [List.cons_append, worth, hc, if_pos rfl, if_neg (by decide), worth_append_of_inWord hmore,
    hgoes, List.length_cons]
  omega

/-! ### What a query can pay for -/

/-- A name that is spelled is in one word, so that it is worth at most two more than it has. -/
theorem worth_append_le {name : Text} (hne : name ≠ []) (h : ∀ c ∈ name, isWordChar c = true)
    (inWord : Bool) (rest : Text) :
    worth inWord (name ++ rest) ≤ name.length + 2 + worth true rest := by
  obtain ⟨c, more, rfl⟩ := List.exists_cons_of_ne_nil hne
  obtain ⟨hc, hmore⟩ := List.forall_mem_cons.1 h
  rw [List.cons_append, worth, hc, if_pos rfl, worth_append_of_inWord hmore, List.length_cons]
  split
  · omega
  · omega

/-- Cleaning a text makes it worth at most four characters for each that it had. -/
theorem worth_inOnePass_le (inWord : Bool) (text : Text) :
    worth inWord (inOnePass text) ≤ 4 * text.length := by
  fun_induction inOnePass text generalizing inWord with
  | case1 => exact Nat.le_refl _
  | case2 text ih | case3 text ih =>
    have hname :
        worth inWord ("cplusplus" ++ inOnePass text) ≤ 9 + 2 + worth true (inOnePass text) :=
      worth_append_le (by decide) (by decide) inWord _
    have hrest := ih true
    simp only [List.length_cons]
    omega
  | case4 text ih | case5 text ih =>
    have hname : worth inWord ("csharp" ++ inOnePass text) ≤ 6 + 2 + worth true (inOnePass text) :=
      worth_append_le (by decide) (by decide) inWord _
    have hrest := ih true
    simp only [List.length_cons]
    omega
  | case6 text ih | case7 text ih =>
    have hname : worth inWord ("fsharp" ++ inOnePass text) ≤ 6 + 2 + worth true (inOnePass text) :=
      worth_append_le (by decide) (by decide) inWord _
    have hrest := ih true
    simp only [List.length_cons]
    omega
  | case8 c text hcplus hCplus hcsharp hCsharp hfsharp hFsharp ih =>
    have hc := worth_cons_le inWord (if isNoise c then ' ' else c) (inOnePass text)
    have hrest := ih (isWordChar (if isNoise c then ' ' else c))
    rw [List.length_cons]
    omega

theorem worth_clean_le (text : Text) : worth false (clean text) ≤ 4 * text.length := by
  have hclean : clean text = inOnePass (dropControls text) :=
    blankNoise_spellLanguages (dropControls text)
  have hcontrols : (dropControls text).length ≤ text.length := List.length_filter_le _ _
  have hworth := worth_inOnePass_le false (dropControls text)
  rw [hclean]
  omega

/-! ### What a clean text pays for -/

/-- Words take up six more than they have, but for four characters: two of these are what the word
is worth, and four are what the character is worth that parts it from the next one. -/
theorem sum_length_closeRun_le (inside : Text) :
    ((Text.closeRun (Text.leadingRun isWordChar inside)).map fun run => run.length + 6).sum ≤
        worth false inside + 4 ∧
      (Text.leadingRun isWordChar inside).1.length +
        ((Text.leadingRun isWordChar inside).2.map fun run => run.length + 6).sum ≤
          worth true inside := by
  induction inside with
  | nil => exact ⟨Nat.zero_le _, Nat.le_refl _⟩
  | cons c inside ih =>
    have hread : Text.leadingRun isWordChar (c :: inside) =
        Text.consRun isWordChar c (Text.leadingRun isWordChar inside) := rfl
    rw [hread]
    generalize Text.leadingRun isWordChar inside = read at ih ⊢
    obtain ⟨first, later⟩ := read
    obtain ⟨hruns, hleading⟩ := ih
    dsimp only at hleading
    cases hc : isWordChar c with
    | true =>
      rw [Text.consRun, hc, if_pos rfl, worth, worth, hc, if_pos rfl, if_pos rfl,
        if_neg (by decide), if_pos rfl, Text.closeRun, List.isEmpty_cons, if_neg (by decide),
        List.map_cons, List.sum_cons, List.length_cons]
      dsimp only
      exact ⟨by omega, by omega⟩
    | false =>
      have hclosed : Text.closeRun ([], Text.closeRun (first, later)) =
        Text.closeRun (first, later) := rfl
      rw [Text.consRun, hc, if_neg (by decide), worth_cons_of_isWordChar_eq_false hc,
        worth_cons_of_isWordChar_eq_false hc, hclosed, List.length_nil]
      dsimp only
      exact ⟨by omega, by omega⟩

/-- A phrase takes up less than its quotes and what is between them are worth. -/
theorem width_phrase_lt (inside : Text) (text : Text) (position : Nat) :
    Token.width ⟨.phrase (phraseWords inside), text, position⟩ < worth false inside + 8 := by
  have hphrase := Token.width_phrase_le (phraseWords inside) text position
  have hwords : ((phraseWords inside).map fun word => word.length + 5).sum ≤
      ((inside.runs isWordChar).map fun run => run.length + 6).sum := by
    have hsublist : (phraseWords inside).Sublist (inside.runs isWordChar) := List.filter_sublist
    refine Nat.le_trans ?_ ((hsublist.map _).sum_le_sum fun _ _ => Nat.zero_le _)
    exact List.sum_le_sum fun word _ => Nat.le_succ _
  have hruns := (sum_length_closeRun_le inside).1
  rw [Text.runs] at hwords
  omega

/-- A clean text pays for its tokens but for one character, and in full if it does not begin with a
word. -/
theorem sum_width_tokensFrom_le (position : Nat) (text : Text) :
    ((tokensFrom position text).map Token.width).sum ≤ worth false text + 1 ∧
      ∀ c ∈ text.head?, isWordChar c = false →
        ((tokensFrom position text).map Token.width).sum ≤ worth false text := by
  -- What does not begin with a word needs to be paid in full only.
  have hfull {text : Text} {paid : Nat} (h : paid ≤ worth false text) :
      paid ≤ worth false text + 1 ∧
        ∀ c ∈ text.head?, isWordChar c = false → paid ≤ worth false text :=
    ⟨Nat.le_succ_of_le h, fun _ _ _ => h⟩
  induction text using cut_induction generalizing position with
  | nil =>
    refine hfull ?_
    rw [tokensFrom]
    exact Nat.zero_le _
  | phrase inside rest hinside ih =>
    refine hfull ?_
    have hphrase := width_phrase_lt inside (quoteMark :: inside ++ [quoteMark]) position
    have hrest := (ih (position + inside.length + 2)).1
    rw [tokensFrom_phrase hinside, worth_cons_of_isWordChar_eq_false isWordChar_quoteMark,
      worth_append_cons isWordChar_quoteMark, List.map_cons, List.sum_cons]
    omega
  | stray rest hquote ih =>
    refine hfull ?_
    have hrest := (ih (position + 1)).1
    rw [tokensFrom_stray hquote, worth_cons_of_isWordChar_eq_false isWordChar_quoteMark]
    omega
  | sign c kind rest hkind ih =>
    refine hfull ?_
    have hrest := (ih (position + 1)).1
    have hwidth : Token.width ⟨kind, [c], position⟩ = 3 := by
      unfold signKind? at hkind
      split at hkind <;> cases hkind <;> rfl
    rw [tokensFrom_sign hkind, worth_cons_of_isWordChar_eq_false (isWordChar_of_signKind? hkind),
      List.map_cons, List.sum_cons, hwidth]
    omega
  | blank c rest hblank ih =>
    refine hfull ?_
    have hrest := (ih (position + 1)).1
    rw [tokensFrom_blank hblank, worth_cons_of_isWordChar_eq_false (isWordChar_of_isBlank hblank)]
    omega
  | run run rest hne hrun hrest ih =>
    have hwidth := Token.sum_width_wordKind?_le run position
    have hworth := worth_append_run hne hrun hrest
    have hpaid :
        ((tokensFrom (position + run.length) rest).map Token.width).sum ≤ worth false rest := by
      cases rest with
      | nil =>
        rw [tokensFrom]
        exact Nat.zero_le _
      | cons c rest => exact (ih (position + run.length)).2 c rfl (hrest c rfl)
    rw [tokensFrom_run hne hrun hrest, List.map_append, List.sum_append, hworth]
    refine ⟨by omega, fun c hc hword => ?_⟩
    obtain ⟨d, more, rfl⟩ := List.exists_cons_of_ne_nil hne
    rw [hrun c (List.mem_of_mem_head? hc)] at hword
    cases hword

/-! ### Compiled texts -/

/-- The text that a clean text compiles to is no longer than the clean text is worth. -/
theorem length_compileText_le (text : Text) : (compileText text).length ≤ worth false text := by
  rw [compileText]
  cases htree : tree? text with
  | none => exact Nat.zero_le _
  | some tree =>
    have hrender := Tree.length_render_of_mem_ofTokens? (tokens text) tree htree
    have hpaid := (sum_width_tokensFrom_le 0 text).1
    rw [Tree.renderOption]
    rw [tokens] at hrender
    omega

/-- What is accepted as a query is no longer than the limit. -/
theorem length_le_of_accept {limit : Int} {value : Json} {text : Text}
    (h : accept limit value = .ok text) : text.length ≤ limit := by
  unfold accept at h
  split at h
  · split_ifs at h with hnil hblank hlong
    cases h
    exact Int.not_lt.1 hlong
  · cases h

/-- A query that is accepted compiles to a text that is at most four times as long, and so to one of
at most 400000 characters under every limit up to the greatest that can be set. -/
theorem compile_length_le {limit : Int} {value : Json} {text : Text}
    (h : accept limit value = .ok text) :
    ∃ compiled, compile limit value = .ok compiled ∧
      compiled.text.length ≤ 4 * text.length ∧
      (limit ≤ Settings.maxLimit → compiled.text.length ≤ 400000) := by
  have hlength : (compiled text).text.length ≤ 4 * text.length :=
    (length_compileText_le (clean text)).trans (worth_clean_le text)
  refine ⟨compiled text, ?_, hlength, fun hlimit => ?_⟩
  · rw [compile, h]
    rfl
  · have haccepted := length_le_of_accept h
    rw [Settings.maxLimit] at hlimit
    omega

set_option maxRecDepth 4000 in
/-- Eleven characters compile to 41, so that no smaller whole factor would do: names of languages
become three times as long, and a stray parenthesis puts parentheses around the disjunctions on both
sides. -/
theorem compile_length_le_of_stray :
    ∃ compiled, compile 100000 (.string "c#|c#)f#|c#") = .ok compiled ∧
      compiled.text.length ≤ 4 * List.length (Text.ofString "c#|c#)f#|c#") ∧
      compiled.text = "( csharp | csharp ) & ( fsharp | csharp )" ∧
      compiled.text.length ≤ 400000 := by
  have haccept : accept 100000 (.string "c#|c#)f#|c#") = .ok "c#|c#)f#|c#" := rfl
  obtain ⟨compiled, hcompile, hlength, hbound⟩ := compile_length_le haccept
  have htext : Query.compiled "c#|c#)f#|c#" = compiled := Except.ok.inj hcompile
  refine ⟨compiled, hcompile, hlength, ?_, hbound (by decide)⟩
  rw [← htext]
  cbv

end Query

end TsQuery
