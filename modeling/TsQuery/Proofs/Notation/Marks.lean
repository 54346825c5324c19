import Mathlib
import TsQuery.Proofs.Notation.Listing

/-!
# Texts with phrase marks

Older texts have a mark on both sides of the parentheses of a phrase and no blanks inside them.  The
words that are listed of such a text are those of the text that is written now
(`Tree.terms_renderMarked`), also where words of the query are marks themselves, or begin or end
with one.

A mark is taken out by what stands next to it, and that can be in another part of the text.  So a
part is listed in its place: nothing before it closes a parenthesis, and nothing behind it goes on
with a word or opens a parenthesis (`Listing.Lists`).  Every part of the text of a tree stands in
such a place, since an operator has a blank on both sides.
-/

namespace TsQuery

/-! ### Marked texts -/

namespace Tree

mutual

/-- The text of a tree, given how a phrase is written. -/
def renderWith (phraseText : List Text → Text) : Tree → Text
  | term word => word
  | phrase words => phraseText words
  | not operand =>
    '!' :: if operand.isCompound then grouped (operand.renderWith phraseText)
      else operand.renderWith phraseText
  | and operands => Text.joined [' ', '&', ' '] (renderConjunctsWith phraseText operands)
  | or operands => Text.joined [' ', '|', ' '] (renderDisjunctsWith phraseText operands)

/-- The texts of operands as they stand in a conjunction, given how a phrase is written. -/
def renderConjunctsWith (phraseText : List Text → Text) : List Tree → List Text
  | [] => []
  | tree :: trees =>
    (if tree.isOr then grouped (tree.renderWith phraseText) else tree.renderWith phraseText) ::
      renderConjunctsWith phraseText trees

/-- The texts of operands as they stand in a disjunction, given how a phrase is written. -/
def renderDisjunctsWith (phraseText : List Text → Text) : List Tree → List Text
  | [] => []
  | tree :: trees => tree.renderWith phraseText :: renderDisjunctsWith phraseText trees

end

/-- A phrase as older texts have it: a mark on both sides of the parentheses. -/
def markedPhrase (words : List Text) : Text :=
  Listing.phraseMark ++ .char '(' :: (Text.joined [' ', '<', '-', '>', ' '] words ++
    .char ')' :: Listing.phraseMark)

/-- The text of a tree as older texts have it. -/
def renderMarked (tree : Tree) : Text :=
  tree.renderWith markedPhrase

theorem renderConjunctsWith_eq_map (phraseText : List Text → Text) (trees : List Tree) :
    renderConjunctsWith phraseText trees =
      trees.map fun tree =>
        if tree.isOr then grouped (tree.renderWith phraseText) else tree.renderWith phraseText := by
  induction trees with
  | nil => rfl
  | cons tree trees ih => rw [renderConjunctsWith, ih, List.map_cons]

theorem renderDisjunctsWith_eq_map (phraseText : List Text → Text) (trees : List Tree) :
    renderDisjunctsWith phraseText trees = trees.map (renderWith phraseText) := by
  induction trees with
  | nil => rfl
  | cons tree trees ih => rw [renderDisjunctsWith, ih, List.map_cons]

/-- The text of a tree is the one in which a phrase is in parentheses between blanks. -/
theorem renderWith_grouped (tree : Tree) :
    tree.renderWith (fun words => grouped (Text.joined [' ', '<', '-', '>', ' '] words)) =
      tree.render := by
  induction tree using Tree.induct with
  | term word => rw [renderWith, render]
  | phrase words => rw [renderWith, render]
  | not operand ih => rw [renderWith, render, ih]
  | and operands ih =>
    rw [renderWith, render, renderConjunctsWith_eq_map, renderConjuncts_eq_map]
    refine congrArg _ (List.map_congr_left fun tree htree => ?_)
    rw [ih tree htree]
  | or operands ih =>
    rw [renderWith, render, renderDisjunctsWith_eq_map, renderDisjuncts_eq_map]
    exact congrArg _ (List.map_congr_left ih)

end Tree

namespace Listing

open Notation

/-! ### Marks in their places -/

/-- What stands behind a part of a text: a blank or a closing parenthesis, if anything. -/
def EndsPart (rest : Text) : Prop :=
  ∀ c ∈ rest.head?, c = ' ' ∨ c = ')'

theorem endsPart_nil : EndsPart [] := nofun

theorem endsPart_blank (rest : Text) : EndsPart (.char ' ' :: rest) := by
  rintro c ⟨⟩
  exact Or.inl rfl

theorem endsPart_closing (rest : Text) : EndsPart (.char ')' :: rest) := by
  rintro c ⟨⟩
  exact Or.inr rfl

/-- No operand and no sign of a phrase begins behind a part, and no parenthesis is opened there. -/
theorem EndsPart.head {c : CodePoint} {rest : Text} (h : EndsPart (c :: rest)) :
    isOperandChar c = false ∧ c ≠ '<' ∧ c ≠ '(' ∧ c ≠ '_' := by
  rcases h c rfl with rfl | rfl
  · decide
  · decide

theorem blankMarks_of_afterMark?_eq_none {before : Option CodePoint} {c : CodePoint} {text : Text}
    (h : afterMark? before (c :: text) = none) :
    blankMarks before (c :: text) = c :: blankMarks (some c) text := by
  rw [blankMarks]
  split
  · next heq =>
    rw [h] at heq
    cases heq
  · rfl

/-- A mark begins with an underscore. -/
theorem blankMarks_cons {c : CodePoint} (h : c ≠ '_') (before : Option CodePoint) (text : Text) :
    blankMarks before (c :: text) = c :: blankMarks (some c) text := by
  refine blankMarks_of_afterMark?_eq_none (if_neg fun hprefix => ?_)
  obtain ⟨rest, hrest⟩ := List.isPrefixOf_iff_prefix.1 hprefix
  exact h (List.cons.inj hrest).1.symm

/-- A mark that touches the outside of a parenthesis becomes a blank. -/
theorem blankMarks_mark {before : Option CodePoint} {rest : Text}
    (h : rest.head? = some (.char '(') ∨ before = some (.char ')')) :
    blankMarks before (phraseMark ++ rest) = .char ' ' :: blankMarks (some (.char '_')) rest := by
  have hprefix : phraseMark.isPrefixOf (phraseMark ++ rest) = true :=
    List.isPrefixOf_iff_prefix.2 (List.prefix_append _ _)
  have hmark : afterMark? before (phraseMark ++ rest) = some rest := by
    rw [afterMark?, if_pos hprefix, List.drop_left]
    refine if_pos ?_
    rwa [Bool.or_eq_true, decide_eq_true_eq, decide_eq_true_eq]
  have hcons : phraseMark ++ rest = .char '_' :: (phraseMark.tail ++ rest) := rfl
  rw [hcons] at hmark ⊢
  rw [blankMarks]
  split
  · next heq =>
    rw [hmark] at heq
    cases heq
    rfl
  · next heq =>
    rw [hmark] at heq
    cases heq

/-- No mark that begins in an operand touches the outside of a parenthesis. -/
theorem afterMark?_operand {word rest : Text} (hword : ∀ c ∈ word, isOperandChar c = true)
    (hne : word ≠ []) {before : Option CodePoint} (hbefore : before ≠ some (.char ')'))
    (hrest : EndsPart rest) : afterMark? before (word ++ rest) = none := by
  unfold afterMark?
  split
  · next hprefix =>
    obtain ⟨behind, heq⟩ := List.isPrefixOf_iff_prefix.1 hprefix
    rw [← heq, List.drop_left]
    refine if_neg fun htouches => ?_
    rw [Bool.or_eq_true, decide_eq_true_eq, decide_eq_true_eq] at htouches
    have hopening : behind.head? = some (.char '(') := htouches.resolve_right hbefore
    have hnone : rest.head? ≠ some (.char '(') := fun hhead => by
      rcases hrest _ hhead with heq | heq
      · cases heq
      · cases heq
    rcases List.append_eq_append_iff.1 heq with ⟨more, rfl, rfl⟩ | ⟨more, hmark, rfl⟩
    · -- The mark is in the operand, so the parenthesis is as well or stands right behind it.
      cases more with
      | nil => exact hnone hopening
      | cons c more =>
        cases hopening
        exact absurd (hword _ (List.mem_append_right _ List.mem_cons_self)) (by decide)
    · -- The mark goes on behind the operand, or the parenthesis stands right behind both.
      cases more with
      | nil => exact hnone hopening
      | cons c more =>
        have hc : c ∈ phraseMark := by
          rw [hmark]
          exact List.mem_append_right _ List.mem_cons_self
        rcases hrest c rfl with rfl | rfl
        · exact absurd hc (by decide)
        · exact absurd hc (by decide)
  · rfl

/-- An operand stays, marks in it included. -/
theorem blankMarks_operand {word : Text} (hword : ∀ c ∈ word, isOperandChar c = true)
    {before : Option CodePoint} (hbefore : before ≠ some (.char ')')) {rest : Text}
    (hrest : EndsPart rest) :
    ∃ last, blankMarks before (word ++ rest) = word ++ blankMarks last rest := by
  induction word generalizing before with
  | nil => exact ⟨before, rfl⟩
  | cons c word ih =>
    obtain ⟨hc, hmore⟩ := List.forall_mem_cons.1 hword
    have hnext : some c ≠ some (.char ')') := by
      intro heq
      rw [Option.some.inj heq] at hc
      exact absurd hc (by decide)
    obtain ⟨last, hlast⟩ := ih hmore hnext
    have hmark : afterMark? before (c :: (word ++ rest)) = none :=
      afterMark?_operand hword (List.cons_ne_nil c word) hbefore hrest
    refine ⟨last, ?_⟩
    rw [List.cons_append, blankMarks_of_afterMark?_eq_none hmark, hlast, List.cons_append]

/-! ### Pieces in their places -/

/-- The pieces of a text once its marks, signs and parentheses are blanks, given the character
before the text. -/
def piecesAfter (before : Option CodePoint) (text : Text) : List Text :=
  Text.closeRun (leadingPiece (blankMarks before text))

theorem words_eq_map_piecesAfter (text : Text) :
    words text = (piecesAfter none text).map Text.lower :=
  rfl

/-- A blank, an operator or a parenthesis is in no piece. -/
theorem piecesAfter_cons {c : CodePoint} (h : isOperandChar c = false) (hlt : c ≠ '<')
    (before : Option CodePoint) (text : Text) :
    piecesAfter before (c :: text) = piecesAfter (some c) text := by
  have hc : c ≠ '_' := by
    rintro rfl
    exact absurd h (by decide)
  rw [piecesAfter, blankMarks_cons hc, leadingPiece_of_isOperandChar_eq_false h hlt]
  rfl

/-- The sign between the words of a phrase is in no piece. -/
theorem piecesAfter_followedBy (before : Option CodePoint) (text : Text) :
    piecesAfter before (.char '<' :: .char '-' :: .char '>' :: text) =
      piecesAfter (some (.char '>')) text := by
  rw [piecesAfter, blankMarks_cons (by decide), blankMarks_cons (by decide),
    blankMarks_cons (by decide), leadingPiece_followedBy]
  rfl

/-- A mark that touches the outside of a parenthesis is in no piece. -/
theorem piecesAfter_mark {before : Option CodePoint} {rest : Text}
    (h : rest.head? = some (.char '(') ∨ before = some (.char ')')) :
    piecesAfter before (phraseMark ++ rest) = piecesAfter (some (.char '_')) rest := by
  rw [piecesAfter, blankMarks_mark h,
    leadingPiece_of_isOperandChar_eq_false (by decide) (by decide)]
  rfl

/-- What stands before it does not matter to what goes on with no word. -/
theorem piecesAfter_of_endsPart {rest : Text} (h : EndsPart rest) (before : Option CodePoint) :
    piecesAfter before rest = piecesAfter none rest := by
  cases rest with
  | nil => rw [piecesAfter, piecesAfter, blankMarks, blankMarks]
  | cons c rest =>
    obtain ⟨hc, hlt, -⟩ := h.head
    rw [piecesAfter_cons hc hlt, piecesAfter_cons hc hlt]

theorem leadingPiece_operand {word : Text} (h : ∀ c ∈ word, isOperandChar c = true) (text : Text) :
    leadingPiece (word ++ text) = (word ++ (leadingPiece text).1, (leadingPiece text).2) := by
  induction word with
  | nil => rfl
  | cons c word ih =>
    obtain ⟨hc, hword⟩ := List.forall_mem_cons.1 h
    rw [List.cons_append, leadingPiece_of_isOperandChar hc, ih hword, List.cons_append]

/-- An operand is one piece. -/
theorem piecesAfter_operand {word : Text} (hword : IsOperandWord word) {before : Option CodePoint}
    (hbefore : before ≠ some (.char ')')) {rest : Text} (hrest : EndsPart rest) :
    piecesAfter before (word ++ rest) = word :: piecesAfter none rest := by
  obtain ⟨last, hmarks⟩ := blankMarks_operand hword.2 hbefore hrest
  have hleading : (leadingPiece (blankMarks last rest)).1 = [] := by
    cases rest with
    | nil => rw [blankMarks, leadingPiece_nil]
    | cons c rest =>
      obtain ⟨hc, hlt, -, hmark⟩ := hrest.head
      rw [blankMarks_cons hmark, leadingPiece_of_isOperandChar_eq_false hc hlt]
  have hlater : Text.closeRun (leadingPiece (blankMarks last rest)) =
      (leadingPiece (blankMarks last rest)).2 := by
    rw [Text.closeRun, hleading, List.isEmpty_nil, if_pos rfl]
  rw [piecesAfter, hmarks, leadingPiece_operand hword.2, hleading, List.append_nil, Text.closeRun,
    if_neg (by rw [List.isEmpty_iff]; exact hword.1), ← piecesAfter_of_endsPart hrest last,
    piecesAfter, hlater]

/-! ### Parts of a text -/

/-- The pieces of a text are given ones, wherever it stands as a part of another text: no
parenthesis is closed right before it, and what stands behind it ends it. -/
def Lists (text : Text) (pieces : List Text) : Prop :=
  ∀ before rest, before ≠ some (.char ')') → EndsPart rest →
    piecesAfter before (text ++ rest) = pieces ++ piecesAfter none rest

namespace Lists

theorem operand {word : Text} (h : IsOperandWord word) : Lists word [word] :=
  fun _ _ hbefore hrest => piecesAfter_operand h hbefore hrest

/-- A text in parentheses. -/
theorem grouped {text : Text} {pieces : List Text} (h : Lists text pieces) :
    Lists (Tree.grouped text) pieces := by
  intro before rest hbefore hrest
  have hclosing : piecesAfter none (.char ' ' :: .char ')' :: rest) = piecesAfter none rest := by
    rw [piecesAfter_cons (by decide) (by decide), piecesAfter_cons (by decide) (by decide),
      piecesAfter_of_endsPart hrest]
  have htext := h (some (.char ' ')) (.char ' ' :: .char ')' :: rest) (by decide) (endsPart_blank _)
  change piecesAfter before
    (.char '(' :: .char ' ' :: ((text ++ [.char ' ', .char ')']) ++ rest)) = _
  rw [piecesAfter_cons (by decide) (by decide), piecesAfter_cons (by decide) (by decide),
    List.append_assoc]
  exact htext.trans (congrArg (pieces ++ ·) hclosing)

/-- A text under a negation sign. -/
theorem negated {text : Text} {pieces : List Text} (h : Lists text pieces) :
    Lists (.char '!' :: text) pieces := by
  intro before rest _ hrest
  rw [List.cons_append, piecesAfter_cons (by decide) (by decide)]
  exact h _ rest (by decide) hrest

/-- A separator that is in no piece, with a blank on both sides. -/
def Separates (separator : Text) : Prop :=
  (∀ text, EndsPart (separator ++ text)) ∧
    ∀ before text, piecesAfter before (separator ++ text) = piecesAfter (some (.char ' ')) text

theorem separates_sign {c : CodePoint} (h : isOperandChar c = false) (hlt : c ≠ '<') :
    Separates [.char ' ', c, .char ' '] := by
  refine ⟨fun text => endsPart_blank _, fun before text => ?_⟩
  change piecesAfter before (.char ' ' :: c :: .char ' ' :: text) = _
  rw [piecesAfter_cons (by decide) (by decide), piecesAfter_cons h hlt,
    piecesAfter_cons (by decide) (by decide)]

theorem separates_followedBy : Separates [' ', '<', '-', '>', ' '] := by
  refine ⟨fun text => endsPart_blank _, fun before text => ?_⟩
  change piecesAfter before
    (.char ' ' :: .char '<' :: .char '-' :: .char '>' :: .char ' ' :: text) = _
  rw [piecesAfter_cons (by decide) (by decide), piecesAfter_followedBy,
    piecesAfter_cons (by decide) (by decide)]

/-- Texts with a separator between each two. -/
theorem joined {α : Type} {separator : Text} (hseparator : Separates separator) {members : List α}
    {f : α → Text} {g : α → List Text} (h : ∀ member ∈ members, Lists (f member) (g member)) :
    Lists (Text.joined separator (members.map f)) (members.flatMap g) := by
  induction members with
  | nil => exact fun before rest _ hrest => piecesAfter_of_endsPart hrest before
  | cons member members ih =>
    obtain ⟨hmember, hmembers⟩ := List.forall_mem_cons.1 h
    intro before rest hbefore hrest
    cases members with
    | nil =>
      rw [List.map_singleton, Text.joined, List.intercalate_singleton, List.flatMap_singleton]
      exact hmember before rest hbefore hrest
    | cons next more =>
      have hmore := ih hmembers (some (.char ' ')) rest (by decide) hrest
      rw [List.map_cons, List.map_cons, Text.joined, List.intercalate_cons_cons, List.append_assoc,
        List.append_assoc, hmember before _ hbefore (hseparator.1 _), hseparator.2,
        List.flatMap_cons, List.append_assoc]
      exact congrArg (g member ++ ·) hmore

/-- The words of a phrase. -/
theorem phrase {words : List Text} (h : ∀ word ∈ words, IsOperandWord word) :
    Lists (Text.joined [' ', '<', '-', '>', ' '] words) words := by
  have hwords := joined separates_followedBy (f := id) (g := fun word => [word])
    fun word hword => operand (h word hword)
  rwa [List.map_id, List.flatMap_singleton'] at hwords

/-- A phrase with its marks. -/
theorem markedPhrase {words : List Text} (h : ∀ word ∈ words, IsOperandWord word) :
    Lists (Tree.markedPhrase words) words := by
  intro before rest _ hrest
  have hclosing : piecesAfter none (.char ')' :: (phraseMark ++ rest)) = piecesAfter none rest := by
    rw [piecesAfter_cons (by decide) (by decide), piecesAfter_mark (Or.inr rfl),
      piecesAfter_of_endsPart hrest]
  have hinside := phrase h (some (.char '(')) (.char ')' :: (phraseMark ++ rest)) (by decide)
    (endsPart_closing _)
  rw [Tree.markedPhrase, List.append_assoc, piecesAfter_mark (Or.inl rfl), List.cons_append,
    piecesAfter_cons (by decide) (by decide), List.append_assoc]
  exact hinside.trans (congrArg (words ++ ·) hclosing)

end Lists

end Listing

/-! ### Trees -/

namespace Tree

open Notation

/-- The pieces of the text of a tree are the words of its leaves, if those of a phrase are its
words. -/
theorem lists_renderWith {phraseText : List Text → Text}
    (hphrase : ∀ words, (∀ word ∈ words, IsOperandWord word) →
      Listing.Lists (phraseText words) words)
    {tree : Tree} (h : ∀ word ∈ tree.words, IsOperandWord word) :
    Listing.Lists (tree.renderWith phraseText) tree.words := by
  induction tree using Tree.induct with
  | term word =>
    rw [renderWith, words_term]
    exact .operand (h word (by rw [words_term]; exact List.mem_singleton_self word))
  | phrase words =>
    rw [words_phrase] at h
    rw [renderWith, words_phrase]
    exact hphrase words h
  | not operand ih =>
    rw [words_not] at h
    rw [renderWith, words_not]
    refine .negated ?_
    split
    · exact (ih h).grouped
    · exact ih h
  | and operands ih =>
    rw [words_and, List.forall_mem_flatMap] at h
    rw [renderWith, renderConjunctsWith_eq_map, words_and]
    refine .joined (Listing.Lists.separates_sign (by decide) (by decide)) fun tree htree => ?_
    have hlists := ih tree htree (h tree htree)
    split
    · exact hlists.grouped
    · exact hlists
  | or operands ih =>
    rw [words_or, List.forall_mem_flatMap] at h
    rw [renderWith, renderDisjunctsWith_eq_map, words_or]
    exact .joined (Listing.Lists.separates_sign (by decide) (by decide)) fun tree htree =>
      ih tree htree (h tree htree)

/-- The words that are listed of the text of a tree, marked or not, are those of its leaves. -/
theorem listing_words_renderWith {phraseText : List Text → Text}
    (hphrase : ∀ words, (∀ word ∈ words, IsOperandWord word) →
      Listing.Lists (phraseText words) words)
    {tree : Tree} (h : ∀ word ∈ tree.words, IsOperandWord word) :
    Listing.words (tree.renderWith phraseText) = tree.words.map Text.lower := by
  have hlists := lists_renderWith hphrase h none [] nofun Listing.endsPart_nil
  have hnil : Listing.piecesAfter none [] = [] := by
    rw [Listing.piecesAfter, Listing.blankMarks, Listing.leadingPiece_nil]
    rfl
  rw [List.append_nil, hnil, List.append_nil] at hlists
  rw [Listing.words_eq_map_piecesAfter, hlists]

/-- The marks of phrases are not listed: the words of the marked text of a tree are those of its
text, and these are the words of its leaves in lower case. -/
theorem terms_renderMarked {tree : Tree} (h : ∀ word ∈ tree.words, IsOperandWord word) :
    Listing.terms tree.renderMarked = Listing.terms tree.render ∧
      ∀ term, term ∈ Listing.terms tree.render ↔ ∃ word ∈ tree.words, word.lower = term := by
  have hmarked : Listing.words tree.renderMarked = tree.words.map Text.lower :=
    listing_words_renderWith (fun _ => .markedPhrase) h
  have hwords : Listing.words tree.render = tree.words.map Text.lower := by
    rw [← renderWith_grouped]
    exact listing_words_renderWith (fun _ hwords => (Listing.Lists.phrase hwords).grouped) h
  refine ⟨?_, fun term => ?_⟩
  · rw [Listing.terms, Listing.terms, hmarked, hwords]
  · rw [Listing.terms, Text.mem_sortedSet, hwords, List.mem_map]

/-- The negation of a phrase with words that are or end with a mark, beside a term that is one. -/
def marksTree : Tree :=
  .and [.not (.phrase ["__PHRASE__", "A__PHRASE__"]), .term "__PHRASE__"]

set_option maxRecDepth 8000 in
/-- Only the marks on the outside of parentheses are taken out. -/
theorem terms_renderMarked_of_marks :
    marksTree.renderMarked = "!__PHRASE__(__PHRASE__ <-> A__PHRASE__)__PHRASE__ & __PHRASE__" ∧
      (Listing.terms marksTree.renderMarked = Listing.terms marksTree.render ∧
        ∀ term, term ∈ Listing.terms marksTree.render ↔
          ∃ word ∈ marksTree.words, word.lower = term) ∧
      marksTree.words.map Text.lower = ["__phrase__", "a__phrase__", "__phrase__"] := by
  have hword : ∀ word ∈ marksTree.words, IsOperandWord word := by
    unfold IsOperandWord
    decide
  refine ⟨?_, terms_renderMarked hword, ?_⟩
  · cbv
  · cbv

end Tree

end TsQuery
