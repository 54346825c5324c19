import Mathlib.Data.List.Chain
import Mathlib.Data.List.Pairwise
import TsQuery.Proofs.Notation.Symbols
import TsQuery.Proofs.Text.LowerCase

/-!
# Listing the words of a compiled text

The words that `Listing.words` finds in a text are the operands that its symbols are cut into, as
long as no phrase mark touches the outside of a parenthesis.  The text of a tree has a blank or a
negation sign there (`Tree.isSpaced_render`), so that its words are those of the leaves of the tree,
in lower case and in order (`Tree.listing_words_render`).
-/

namespace TsQuery

/-! ### Around parentheses -/

namespace Listing

/-- Two characters that may stand side by side: what follows a closing parenthesis is a blank, and
what comes before an opening one is a blank or a negation sign. -/
def Beside (a b : CodePoint) : Prop :=
  (a = ')' → b = ' ') ∧ (b = '(' → a = ' ' ∨ a = '!')

instance (a b : CodePoint) : Decidable (Beside a b) :=
  inferInstanceAs (Decidable (_ ∧ _))

/-- A text whose parentheses touch no word from the outside. -/
def IsSpaced (text : Text) : Prop :=
  text.IsChain Beside

instance (text : Text) : Decidable (IsSpaced text) :=
  inferInstanceAs (Decidable (text.IsChain Beside))

theorem beside_blank_left (b : CodePoint) : Beside ' ' b :=
  ⟨nofun, fun _ => Or.inl rfl⟩

theorem beside_blank_right (a : CodePoint) : Beside a ' ' :=
  ⟨fun _ => rfl, nofun⟩

/-- Spaced texts can be put side by side if there is a blank where they meet. -/
theorem IsSpaced.append {left right : Text} (hleft : IsSpaced left) (hright : IsSpaced right)
    (hblank : left.getLast? = some (.char ' ') ∨ right.head? = some (.char ' ')) :
    IsSpaced (left ++ right) := by
  refine List.IsChain.append hleft hright fun a ha b hb => ?_
  rcases hblank with hlast | hhead
  · rw [hlast] at ha
    cases ha
    exact beside_blank_left b
  · rw [hhead] at hb
    cases hb
    exact beside_blank_right a

/-- An operand has no parentheses. -/
theorem isSpaced_of_isOperandWord {word : Text} (h : Notation.IsOperandWord word) :
    IsSpaced word := by
  refine List.Pairwise.isChain (List.pairwise_of_forall_mem_list fun a ha b hb => ⟨?_, ?_⟩)
  · rintro rfl
    exact absurd (h.2 _ ha) (by decide)
  · rintro rfl
    exact absurd (h.2 _ hb) (by decide)

/-- Texts with a separator between each two that begins and ends with a blank. -/
theorem isSpaced_joined {separator : Text} (hseparator : IsSpaced separator)
    (hhead : separator.head? = some (.char ' ')) (hlast : separator.getLast? = some (.char ' '))
    {texts : List Text} (h : ∀ text ∈ texts, IsSpaced text) :
    IsSpaced (Text.joined separator texts) := by
  induction texts with
  | nil => exact .nil
  | cons text texts ih =>
    obtain ⟨htext, htexts⟩ := List.forall_mem_cons.1 h
    cases texts with
    | nil => rwa [Text.joined, List.intercalate_singleton]
    | cons next more =>
      have hrest : IsSpaced (separator ++ Text.joined separator (next :: more)) :=
        hseparator.append (ih htexts) (Or.inl hlast)
      rw [Text.joined, List.intercalate_cons_cons, List.append_assoc]
      refine htext.append hrest (Or.inr ?_)
      rw [List.head?_append, hhead, Option.some_or]

/-- A text in parentheses. -/
theorem isSpaced_grouped {text : Text} (h : IsSpaced text) : IsSpaced (Tree.grouped text) := by
  have hopening : IsSpaced ['(', ' '] := by decide
  have hopened := hopening.append h (Or.inl rfl)
  exact hopened.append (by decide) (Or.inr rfl)

/-- A text under a negation sign. -/
theorem IsSpaced.negated {text : Text} (h : IsSpaced text) : IsSpaced ('!' :: text) :=
  List.IsChain.cons h fun _ _ => ⟨nofun, fun _ => Or.inr rfl⟩

end Listing

/-- The text of a tree over operands is spaced. -/
theorem Tree.isSpaced_render {tree : Tree} (h : ∀ word ∈ tree.words, Notation.IsOperandWord word) :
    Listing.IsSpaced tree.render := by
  induction tree using Tree.induct with
  | term word =>
    rw [render]
    have hmem : word ∈ (term word).words := by
      rw [words_term]
      exact List.mem_singleton_self word
    exact Listing.isSpaced_of_isOperandWord (h word hmem)
  | phrase words =>
    rw [render]
    rw [words_phrase] at h
    exact Listing.isSpaced_grouped (Listing.isSpaced_joined (by decide) rfl rfl
      fun word hword => Listing.isSpaced_of_isOperandWord (h word hword))
  | not operand ih =>
    rw [render]
    rw [words_not] at h
    refine Listing.IsSpaced.negated ?_
    split
    · exact Listing.isSpaced_grouped (ih h)
    · exact ih h
  | and operands ih =>
    rw [render, renderConjuncts_eq_map]
    rw [words_and, List.forall_mem_flatMap] at h
    refine Listing.isSpaced_joined (by decide) rfl rfl (List.forall_mem_map.2 fun tree htree => ?_)
    have hspaced := ih tree htree (h tree htree)
    split
    · exact Listing.isSpaced_grouped hspaced
    · exact hspaced
  | or operands ih =>
    rw [render, renderDisjuncts_eq_map]
    rw [words_or, List.forall_mem_flatMap] at h
    refine Listing.isSpaced_joined (by decide) rfl rfl (List.forall_mem_map.2 fun tree htree => ?_)
    exact ih tree htree (h tree htree)

/-! ### Phrase marks -/

namespace Listing

/-- No phrase mark of a spaced text touches the outside of a parenthesis. -/
theorem afterMark?_of_isSpaced {before : Option CodePoint} {text : Text}
    (h : IsSpaced (before.toList ++ text)) : afterMark? before text = none := by
  unfold afterMark?
  split
  · next hprefix =>
    obtain ⟨rest, rfl⟩ := List.isPrefixOf_iff_prefix.1 hprefix
    rw [List.drop_left]
    refine if_neg fun htouches => ?_
    rw [Bool.or_eq_true, decide_eq_true_eq, decide_eq_true_eq] at htouches
    rcases htouches with hopening | hclosing
    · have hmark : IsSpaced (phraseMark ++ rest) := List.IsChain.right_of_append h
      have hbeside : Beside '_' '(' := (List.isChain_append.1 hmark).2.2 '_' rfl '(' hopening
      exact absurd hbeside (by decide)
    · rw [hclosing] at h
      have hbeside : Beside ')' '_' := (List.isChain_append.1 h).2.2 ')' rfl '_' rfl
      exact absurd hbeside (by decide)
  · rfl

/-- A spaced text has no marks to take out. -/
theorem blankMarks_of_isSpaced {before : Option CodePoint} {text : Text}
    (h : IsSpaced (before.toList ++ text)) : blankMarks before text = text := by
  induction text generalizing before with
  | nil => rw [blankMarks]
  | cons c text ih =>
    have hrest : IsSpaced (c :: text) := List.IsChain.right_of_append h
    rw [blankMarks]
    split
    · next hmark =>
      rw [afterMark?_of_isSpaced h] at hmark
      cases hmark
    · have htail : blankMarks (some c) text = text := ih hrest
      rw [htail]

end Listing

/-! ### Signs of phrases -/

namespace Listing

/-- A text with a blank for each sign between the words of a phrase. -/
def blankFollowedBy (text : Text) : Text :=
  text.replace '<' ['-', '>'] [' ']

theorem blankFollowedBy_followedBy (text : Text) :
    blankFollowedBy ('<' :: '-' :: '>' :: text) = .char ' ' :: blankFollowedBy text := by
  have hafter : Text.after? ['<', '-', '>'] ('<' :: '-' :: '>' :: text) = some text := rfl
  rw [blankFollowedBy, Text.replace]
  split
  · next rest heq =>
    rw [hafter] at heq
    cases heq
    rfl
  · next heq =>
    rw [hafter] at heq
    cases heq

theorem blankFollowedBy_cons {c : CodePoint} (hc : c ≠ '<') (text : Text) :
    blankFollowedBy (c :: text) = c :: blankFollowedBy text := by
  have hsmall : c.toSmallAscii ≠ '<' := by
    intro hlt
    rcases c.toSmallAscii_eq_or_isSmallOrBeyond with heq | hletter
    · exact hc (heq.symm.trans hlt)
    · rw [hlt] at hletter
      exact absurd hletter (by decide)
  have hafter : Text.after? ['<', '-', '>'] (c :: text) = none := by
    rw [Text.after?, if_neg hsmall]
  rw [blankFollowedBy, Text.replace]
  split
  · next rest heq =>
    rw [hafter] at heq
    cases heq
  · rfl

end Listing

/-! ### Words of a text and operands of its symbols -/

namespace Notation

/-- The word of an operand. -/
def Symbol.operand? : Symbol → Option Text
  | .operand word => some word
  | _ => none

/-- The words of the operands among symbols, in order. -/
def operands (symbols : List Symbol) : List Text :=
  symbols.filterMap Symbol.operand?

@[simp] theorem operands_append (left right : List Symbol) :
    operands (left ++ right) = operands left ++ operands right :=
  List.filterMap_append

theorem operands_consOperand (word : Text) (symbols : List Symbol) :
    operands (consOperand word symbols) = Text.closeRun (word, operands symbols) := by
  cases word with
  | nil => rfl
  | cons c word => rfl

@[simp] theorem operands_enclosed (symbols : List Symbol) :
    operands (enclosed symbols) = operands symbols := by
  change operands (symbols ++ [.closing]) = operands symbols
  rw [operands_append]
  exact List.append_nil _

@[simp] theorem operands_chained (operator : Operator) (members : List (List Symbol)) :
    operands (chained operator members) = members.flatMap operands := by
  induction members with
  | nil => rfl
  | cons member members ih =>
    cases members with
    | nil => rw [chained, List.intercalate_singleton, List.flatMap_singleton]
    | cons next more =>
      rw [chained, List.intercalate_cons_cons, operands_append, operands_append, List.flatMap_cons,
        ← ih, List.append_assoc]
      rfl

/-- A character that is a symbol by itself is no operand. -/
theorem operand?_of_sign? {c : CodePoint} {symbol : Symbol} (h : sign? c = some symbol) :
    symbol.operand? = none := by
  unfold sign? at h
  split at h <;> cases h <;> rfl

end Notation

namespace Listing

open Notation

/-- A character, or a blank if it belongs to an operator or is a parenthesis. -/
def blankOperator (c : CodePoint) : CodePoint :=
  if isOperatorChar c then ' ' else c

theorem bare_of_isSpaced {text : Text} (h : IsSpaced text) :
    bare text = (blankFollowedBy text).map blankOperator := by
  have hmarks : blankMarks none text = text := blankMarks_of_isSpaced h
  rw [bare, hmarks]
  rfl

/-- The piece that is left at the beginning of a text once its operators are blanks, which may be
empty, and the later pieces. -/
def leadingPiece (text : Text) : Text × List Text :=
  Text.leadingRun (fun c => !isBlank c) ((blankFollowedBy text).map blankOperator)

theorem leadingPiece_nil : leadingPiece [] = ([], []) := by
  rw [leadingPiece, blankFollowedBy, Text.replace]
  rfl

theorem leadingPiece_followedBy (text : Text) :
    leadingPiece ('<' :: '-' :: '>' :: text) = ([], Text.closeRun (leadingPiece text)) := by
  rw [leadingPiece, blankFollowedBy_followedBy]
  rfl

/-- A character of an operand stays. -/
theorem leadingPiece_of_isOperandChar {c : CodePoint} (h : isOperandChar c = true) (text : Text) :
    leadingPiece (c :: text) = (c :: (leadingPiece text).1, (leadingPiece text).2) := by
  have hlt : c ≠ '<' := by
    rintro rfl
    exact absurd h (by decide)
  simp only [isOperandChar, Bool.and_eq_true, Bool.not_eq_true'] at h
  obtain ⟨hblank, hoperator⟩ := h
  have hstays : blankOperator c = c := by
    rw [blankOperator, hoperator]
    rfl
  have hkeep : (!isBlank c) = true := by rw [hblank, Bool.not_false]
  rw [leadingPiece, blankFollowedBy_cons hlt, List.map_cons, hstays]
  exact if_pos hkeep

/-- Any other character becomes a blank, or is one. -/
theorem leadingPiece_of_isOperandChar_eq_false {c : CodePoint} (h : isOperandChar c = false)
    (hlt : c ≠ '<') (text : Text) :
    leadingPiece (c :: text) = ([], Text.closeRun (leadingPiece text)) := by
  have hblank : isBlank (blankOperator c) = true := by
    rw [blankOperator]
    split
    · decide
    · next hoperator =>
      rw [isOperandChar, Bool.eq_false_iff.2 hoperator, Bool.not_false, Bool.and_true,
        Bool.not_eq_false'] at h
      exact h
  have hdrop : ¬(!isBlank (blankOperator c)) = true := by rw [hblank]; decide
  rw [leadingPiece, blankFollowedBy_cons hlt, List.map_cons]
  exact if_neg hdrop

theorem operands_afterSymbols {before : List Symbol} (h : operands before = [])
    (read : Text × List Symbol) :
    ((afterSymbols before read).1, operands (afterSymbols before read).2) =
      ([], Text.closeRun (read.1, operands read.2)) := by
  rw [afterSymbols, operands_append, h, operands_consOperand, List.nil_append]

/-- What is left of a text once its operators are blanks begins with the operand that the text
begins with, and the later pieces are the later operands. -/
theorem leadingPiece_of_scan {text : Text} {read : Text × List Symbol} (h : scan text = some read) :
    leadingPiece text = (read.1, operands read.2) := by
  refine scan_induction (motive := fun text read => leadingPiece text = (read.1, operands read.2))
    ?nil ?followedBy ?operand ?blank ?sign h
  case nil => exact leadingPiece_nil
  case followedBy =>
    intro text read ih
    rw [leadingPiece_followedBy, ih, operands_afterSymbols rfl]
  case operand =>
    intro c text read hoperand ih
    rw [leadingPiece_of_isOperandChar hoperand, ih]
  case blank =>
    intro c text read hblank ih
    have hlt : c ≠ '<' := by
      rintro rfl
      exact absurd hblank (by decide)
    rw [leadingPiece_of_isOperandChar_eq_false (isOperandChar_of_isBlank hblank) hlt, ih,
      operands_afterSymbols rfl]
  case sign =>
    intro c symbol text read hsign ih
    obtain ⟨hoperand, -, hlt⟩ := isOperandChar_of_sign? hsign
    have hbefore : operands [symbol] = [] := by
      rw [operands, List.filterMap_cons_none (operand?_of_sign? hsign), List.filterMap_nil]
    rw [leadingPiece_of_isOperandChar_eq_false hoperand hlt, ih, operands_afterSymbols hbefore]

/-- The words of a spaced text are the operands that it is cut into, in lower case. -/
theorem words_of_symbols? {text : Text} {symbols : List Symbol} (hspaced : IsSpaced text)
    (h : symbols? text = some symbols) : words text = (operands symbols).map Text.lower := by
  obtain ⟨read, hscan, rfl⟩ := Option.map_eq_some_iff.1 h
  have hpieces : (bare text).pieces = operands (consOperand read.1 read.2) := by
    rw [bare_of_isSpaced hspaced, operands_consOperand, ← leadingPiece_of_scan hscan]
    rfl
  rw [words, hpieces]

end Listing

/-! ### Trees -/

namespace Tree

/-- The operands of the symbols of a tree are its words. -/
theorem operands_symbols (tree : Tree) : Notation.operands tree.symbols = tree.words := by
  induction tree using Tree.induct with
  | term word =>
    rw [symbols, words_term]
    rfl
  | phrase words =>
    have hwords : (words.map fun word => [Notation.Symbol.operand word]).flatMap
        Notation.operands = words := by
      rw [List.flatMap_map]
      exact List.flatMap_singleton' words
    rw [symbols, Notation.operands_enclosed, Notation.operands_chained, hwords, words_phrase]
  | not operand ih =>
    rw [symbols, words_not, ← ih]
    split
    · exact Notation.operands_enclosed operand.symbols
    · rfl
  | and operands ih =>
    rw [symbols, Notation.operands_chained, conjunctSymbols_eq_map, words_and, List.flatMap_map]
    refine List.flatMap_congr fun tree htree => ?_
    rw [← ih tree htree]
    split
    · exact Notation.operands_enclosed tree.symbols
    · rfl
  | or operands ih =>
    rw [symbols, Notation.operands_chained, disjunctSymbols_eq_map, words_or, List.flatMap_map]
    exact List.flatMap_congr ih

/-- The words that are listed of the text of a tree are those of its leaves, in lower case and in
order. -/
theorem listing_words_render {tree : Tree} (h : ∀ word ∈ tree.words, Notation.IsOperandWord word) :
    Listing.words tree.render = tree.words.map Text.lower := by
  rw [Listing.words_of_symbols? (isSpaced_render h) (symbols?_render h), operands_symbols]

end Tree

end TsQuery
