import TsQuery.Proofs.Assembly.Content
import TsQuery.Proofs.Scan.Places
import TsQuery.Query.Compile

/-!
# Keywords and signs

An operator can be spelled as a keyword, in any case, or as a sign.  A text is `Query.Respelled`
from another one if keywords of that, any number of them, are replaced by their signs; this changes
neither the compiled text nor the vocabulary (`Query.respelled_interchangeable`).

A sign needs no blanks around it, and it neither opens nor closes a phrase, so replacing a keyword
changes the token of the keyword and the positions of those behind it
(`Query.map_content_tokens_respelled`).  Neither the tree nor the vocabulary depends on that.
-/

namespace TsQuery

namespace Vocabulary

theorem pendingAfter_congr {left right : Token} (h : left.content = right.content)
    (negated : Bool) : pendingAfter negated left = pendingAfter negated right := by
  have hkind : left.kind = right.kind := congrArg Prod.fst h
  rw [pendingAfter, pendingAfter, hkind]

/-- Which words are marked, and how, depends on the contents of the tokens only. -/
theorem marks_congr {left right : List Token}
    (h : left.map Token.content = right.map Token.content) (negated : Bool) :
    marks negated left = marks negated right := by
  induction left generalizing right negated with
  | nil =>
    obtain rfl : right = [] := List.map_eq_nil_iff.1 h.symm
    rfl
  | cons token tokens ih =>
    cases right with
    | nil => cases h
    | cons token' tokens' =>
      obtain ⟨htoken, htokens⟩ := List.cons.inj h
      have hwords : token.words = token'.words := congrArg Prod.snd htoken
      rw [marks_cons, marks_cons, hwords, pendingAfter_congr htoken, ih htokens]

/-- The vocabulary of tokens depends on their contents only. -/
theorem ofTokens_congr {left right : List Token}
    (h : left.map Token.content = right.map Token.content) : ofTokens left = ofTokens right := by
  rw [ofTokens, ofTokens, marks_congr h]

end Vocabulary

namespace Query

/-- The keywords of the query grammar, each with the sign that stands for it. -/
def keywordSigns : List (Text × CodePoint) :=
  [(['a', 'n', 'd'], '&'), (['o', 'r'], '|'), (['n', 'o', 't'], '!')]

/-- A text behind another one, and what is left of it when keywords are replaced by their signs. Any
number of them are, each of which is a maximal run outside of phrases. -/
inductive Respelled : Text → Text → Text → Prop
  | same (before text : Text) : Respelled before text text
  | keep {before rest respelled : Text} (piece : Text)
      (later : Respelled (before ++ piece) rest respelled) :
      Respelled before (piece ++ rest) (piece ++ respelled)
  | replace {before run rest respelled : Text} {sign : CodePoint} (isRun : IsRun before run rest)
      (means : (run.lower, sign) ∈ keywordSigns)
      (later : Respelled (before ++ run) rest respelled) :
      Respelled before (run ++ rest) (sign :: respelled)

/-! ### One replacement -/

/-- A keyword and its sign have the same content. -/
theorem exists_kind_of_mem_keywordSigns {run : Text} {sign : CodePoint}
    (h : (run.lower, sign) ∈ keywordSigns) :
    ∃ kind, wordKind? run = some kind ∧ signKind? sign = some kind ∧
      ∀ position, (⟨kind, run, position⟩ : Token).content = (kind, []) ∧
        (⟨kind, [sign], position⟩ : Token).content = (kind, []) := by
  simp only [keywordSigns, List.mem_cons, List.not_mem_nil, or_false, Prod.mk.injEq] at h
  rcases h with ⟨hand, rfl⟩ | ⟨hor, rfl⟩ | ⟨hnot, rfl⟩
  · exact ⟨.and, wordKind?_eq_some_iff.2 (.and hand), rfl, fun _ => ⟨rfl, rfl⟩⟩
  · exact ⟨.or, wordKind?_eq_some_iff.2 (.or hor), rfl, fun _ => ⟨rfl, rfl⟩⟩
  · exact ⟨.not, wordKind?_eq_some_iff.2 (.not hnot), rfl, fun _ => ⟨rfl, rfl⟩⟩

/-- The contents of tokens do not depend on where the text begins. -/
theorem map_content_tokensFrom (position : Nat) (text : Text) :
    (tokensFrom position text).map Token.content = (tokens text).map Token.content := by
  have hlater : Token.content ∘ Token.later position = Token.content := rfl
  rw [tokensFrom_eq_map, List.map_map, hlater]

/-- A sign in the place of a keyword changes the contents of no tokens. -/
theorem IsRun.map_content_tokens {before run after : Text} {sign : CodePoint}
    (h : IsRun before run after) (hsign : (run.lower, sign) ∈ keywordSigns) :
    (tokens (before ++ (run ++ after))).map Token.content =
      (tokens (before ++ sign :: after)).map Token.content := by
  obtain ⟨kind, hrun, hkind, hcontent⟩ := exists_kind_of_mem_keywordSigns hsign
  rw [h.tokens_eq, hrun, tokens_append (isCut_sign hkind h.outside), tokensFrom_sign hkind]
  simp only [Option.toList_some, List.map_cons, List.map_nil, List.map_append, List.cons_append,
    List.nil_append, (hcontent _).1, (hcontent _).2, map_content_tokensFrom]

/-! ### Any number of replacements -/

namespace Respelled

variable {before text respelled : Text}

/-- A sign in the place of a keyword is no part of a run before it. -/
theorem head_eq_false (h : Respelled before text respelled)
    (hhead : ∀ c ∈ text.head?, isWordChar c = false) :
    ∀ c ∈ respelled.head?, isWordChar c = false := by
  induction h with
  | same => exact hhead
  | keep piece later ih =>
    cases piece with
    | nil => exact ih hhead
    | cons c piece => exact hhead
  | replace isRun means later ih =>
    obtain ⟨kind, -, hkind, -⟩ := exists_kind_of_mem_keywordSigns means
    rintro _ ⟨⟩
    exact isWordChar_of_signKind? hkind

/-- No sign is a quote. -/
theorem quoteMark_notMem (h : Respelled before text respelled) (hquote : quoteMark ∉ text) :
    quoteMark ∉ respelled := by
  induction h with
  | same => exact hquote
  | keep piece later ih =>
    rw [List.mem_append, not_or] at hquote ⊢
    exact ⟨hquote.1, ih hquote.2⟩
  | replace isRun means later ih =>
    obtain ⟨kind, -, hkind, -⟩ := exists_kind_of_mem_keywordSigns means
    refine List.not_mem_cons_of_ne_of_not_mem (ne_quoteMark_of_signKind? hkind).symm ?_
    exact ih fun hmem => hquote (List.mem_append_right _ hmem)

/-- A run before replaced keywords stays a run. -/
theorem isRun {run : Text} (h : Respelled (before ++ run) text respelled)
    (hrun : IsRun before run text) : IsRun before run respelled where
  nonempty := hrun.nonempty
  wordChars := hrun.wordChars
  begins := hrun.begins
  ends := h.head_eq_false hrun.ends
  outside := hrun.outside.imp_right h.quoteMark_notMem

end Respelled

/-- Signs in the place of keywords change the contents of no tokens. -/
theorem map_content_tokens_respelled {before text respelled : Text}
    (h : Respelled before text respelled) :
    (tokens (before ++ text)).map Token.content =
      (tokens (before ++ respelled)).map Token.content := by
  induction h with
  | same => rfl
  | keep piece later ih => rwa [List.append_assoc, List.append_assoc] at ih
  | @replace before run rest respelled sign isRun means later ih =>
    -- The keywords behind are replaced first, while the run is still there.
    rw [List.append_assoc, List.append_assoc] at ih
    rw [ih]
    exact (later.isRun isRun).map_content_tokens means

/-- Keywords and signs are interchangeable: no sign in the place of a keyword changes the compiled
text or the vocabulary. -/
theorem respelled_interchangeable {before text respelled : Text}
    (h : Respelled before text respelled) :
    compileText (before ++ text) = compileText (before ++ respelled) ∧
      Vocabulary.ofText (before ++ text) = Vocabulary.ofText (before ++ respelled) := by
  have hcontent := map_content_tokens_respelled h
  constructor
  · rw [compileText, compileText, tree?, tree?, Tree.ofTokens?_congr hcontent]
  · exact Vocabulary.ofTokens_congr hcontent

/-- Keywords stand against a word, a phrase and a quote without a partner; the one in the phrase
stays. -/
theorem respelled_interchangeable_of_stray_quote :
    Respelled "a " "AnD\"b or c\"nOt \"d OR(e" "&\"b or c\"! \"d |(e" ∧
      compileText ("a " ++ "AnD\"b or c\"nOt \"d OR(e") =
        compileText ("a " ++ "&\"b or c\"! \"d |(e") ∧
      Vocabulary.ofText ("a " ++ "AnD\"b or c\"nOt \"d OR(e") =
        Vocabulary.ofText ("a " ++ "&\"b or c\"! \"d |(e") := by
  have hlast : IsRun "a AnD\"b or c\"nOt \"d " "OR" "(e" :=
    ⟨by decide, by decide, by decide, by decide, Or.inr (by decide)⟩
  have hmiddle : IsRun "a AnD\"b or c\"" "nOt" " \"d OR(e" :=
    ⟨by decide, by decide, by decide, by decide, Or.inl (by decide)⟩
  have hfirst : IsRun "a " "AnD" "\"b or c\"nOt \"d OR(e" :=
    ⟨by decide, by decide, by decide, by decide, Or.inl (by decide)⟩
  have h : Respelled "a " "AnD\"b or c\"nOt \"d OR(e" "&\"b or c\"! \"d |(e" :=
    .replace hfirst (by decide) <| .keep "\"b or c\"" <| .replace hmiddle (by decide) <|
      .keep " \"d " <| .replace hlast (by decide) (.same _ _)
  exact ⟨h, respelled_interchangeable h⟩

end Query

end TsQuery
