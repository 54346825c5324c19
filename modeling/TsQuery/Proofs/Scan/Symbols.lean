import TsQuery.Proofs.Assembly.Content
import TsQuery.Proofs.Notation.Render
import TsQuery.Proofs.Scan.Clean
import TsQuery.Proofs.Scan.Cut

/-!
# Cutting a compiled text into tokens

A compiled text that is taken as a query again is cut along the same lines as its own notation cuts
it: each symbol is a token, but for operands that spell an operator, and but for the sign between
the words of a phrase, of which cleaning leaves a hyphen that is noise (`Notation.Symbol.tokens`,
`Notation.CutsAs`).  Tokens are compared here without their positions, on which their tree does not
depend (`Tree.ofTokens?_map_unplaced`).  So the text of a tree is read as the tokens that the
symbols of the tree are taken for (`Tree.IsClean.tree?_clean`).
-/

namespace TsQuery

/-! ### Positions -/

/-- A token at the beginning of a text. -/
def Token.unplaced (token : Token) : Token :=
  { token with position := 0 }

/-- The tree of tokens does not depend on their positions. -/
theorem Tree.ofTokens?_map_unplaced (tokens : List Token) :
    ofTokens? (tokens.map Token.unplaced) = ofTokens? tokens := by
  refine ofTokens?_congr ?_
  rw [List.map_map]
  rfl

/-! ### Symbols as tokens -/

namespace Notation

/-- The tokens that a symbol is taken for in a query. -/
def Symbol.tokens : Symbol → List Token
  | .operand word => (Query.wordKind? word).toList.map (⟨·, word, 0⟩)
  | .operator .or => [⟨.or, ['|'], 0⟩]
  | .operator .and => [⟨.and, ['&'], 0⟩]
  | .operator .followedBy => []
  | .operator .not => [⟨.not, ['!'], 0⟩]
  | .opening => [⟨.opening, ['('], 0⟩]
  | .closing => [⟨.closing, [')'], 0⟩]

/-- The tokens that symbols are taken for in a query. -/
def tokensOf (symbols : List Symbol) : List Token :=
  symbols.flatMap Symbol.tokens

theorem tokensOf_append (left right : List Symbol) :
    tokensOf (left ++ right) = tokensOf left ++ tokensOf right :=
  List.flatMap_append

theorem tokensOf_singleton (symbol : Symbol) : tokensOf [symbol] = symbol.tokens :=
  List.flatMap_singleton ..

/-- A character that is a symbol by itself is a sign of the grammar, too. -/
theorem tokens_of_sign? {c : CodePoint} {symbol : Symbol} (h : sign? c = some symbol) :
    Query.isNoise c = false ∧
      ∃ kind, Query.signKind? c = some kind ∧ symbol.tokens = [⟨kind, [c], 0⟩] := by
  unfold sign? at h
  split at h
  · cases h
    exact ⟨by decide, .or, rfl, rfl⟩
  · cases h
    exact ⟨by decide, .and, rfl, rfl⟩
  · cases h
    exact ⟨by decide, .not, rfl, rfl⟩
  · cases h
    exact ⟨by decide, .opening, rfl, rfl⟩
  · cases h
    exact ⟨by decide, .closing, rfl, rfl⟩
  · cases h

/-- What can stand in an operand has no meaning to the grammar but for the quote. -/
theorem isWordChar_of_isOperandChar {c : CodePoint} (h : isOperandChar c = true)
    (hquote : c ≠ Query.quoteMark) : Query.isWordChar c = true := by
  have hsigns : ∀ sign ∈ Query.grammarSigns, isOperandChar sign = false := by decide
  have hplain : c ∉ Query.quoteMark :: Query.grammarSigns := by
    rw [List.mem_cons, not_or]
    refine ⟨hquote, fun hmem => ?_⟩
    rw [hsigns c hmem] at h
    cases h
  rw [isOperandChar, Bool.and_eq_true, Bool.not_eq_true'] at h
  exact Query.isWordChar_iff.2 ⟨h.1, hplain⟩

/-! ### A text as symbols and as tokens -/

open Query

/-- A text is cut into a run of word characters that it begins with, which may be empty, and the
tokens that symbols are taken for. -/
structure CutsAs (text : Text) (read : Text × List Symbol) : Prop where
  run : text.takeWhile isWordChar = read.1
  rest : ∀ position, (tokensFrom position (text.dropWhile isWordChar)).map Token.unplaced =
    tokensOf read.2

namespace CutsAs

variable {text : Text} {read : Text × List Symbol}

/-- The run is taken for the operand that it is. -/
theorem tokens (h : CutsAs text read) (position : Nat) :
    (tokensFrom position text).map Token.unplaced = tokensOf (consOperand read.1 read.2) := by
  obtain ⟨word, symbols⟩ := read
  cases word with
  | nil =>
    have hsplit := List.takeWhile_append_dropWhile (p := isWordChar) (l := text)
    rw [h.run, List.nil_append] at hsplit
    have htext := h.rest position
    rw [hsplit] at htext
    exact htext
  | cons c word =>
    rw [tokensFrom_of_takeWhile h.run (List.cons_ne_nil c word), List.map_append, h.rest,
      List.map_map]
    rfl

/-- A text that begins with a character of no word is cut into tokens from its beginning. -/
theorem of_not_isWordChar {c : CodePoint} (hc : isWordChar c = false) {before : List Symbol}
    (h : ∀ position, (tokensFrom position (c :: text)).map Token.unplaced =
      tokensOf before ++ tokensOf (consOperand read.1 read.2)) :
    CutsAs (c :: text) (afterSymbols before read) where
  run := List.takeWhile_cons_of_neg (by rw [hc]; decide)
  rest := by
    rw [List.dropWhile_cons_of_neg (by rw [hc]; decide), afterSymbols, tokensOf_append]
    exact h

/-- A blank changes nothing but for ending a run. -/
theorem blank (h : CutsAs text read) {c : CodePoint} (hc : isBlank c = true) :
    CutsAs (c :: text) (afterSymbols [] read) := by
  refine of_not_isWordChar (isWordChar_of_isBlank hc) fun position => ?_
  rw [tokensFrom_blank hc]
  exact h.tokens _

/-- A word character belongs to the run. -/
theorem operand (h : CutsAs text read) {c : CodePoint} (hc : isWordChar c = true) :
    CutsAs (c :: text) (c :: read.1, read.2) where
  run := by rw [List.takeWhile_cons_of_pos hc, h.run]
  rest := by
    rw [List.dropWhile_cons_of_pos hc]
    exact h.rest

/-- A sign is taken for the symbol that it is. -/
theorem sign (h : CutsAs text read) {c : CodePoint} {symbol : Symbol}
    (hsymbol : sign? c = some symbol) : CutsAs (c :: text) (afterSymbols [symbol] read) := by
  obtain ⟨-, kind, hkind, htokens⟩ := tokens_of_sign? hsymbol
  refine of_not_isWordChar (isWordChar_of_signKind? hkind) fun position => ?_
  rw [tokensFrom_sign hkind, List.map_cons, h.tokens, tokensOf_singleton, htokens]
  rfl

/-- Of the sign between the words of a phrase, a hyphen is left between blanks, which is noise. -/
theorem followedBy (h : CutsAs text read) :
    CutsAs (.char ' ' :: .char '-' :: .char ' ' :: text)
      (afterSymbols [.operator .followedBy] read) := by
  have hrun : (.char '-' :: .char ' ' :: text : Text).takeWhile isWordChar = [.char '-'] := rfl
  have hdrop : (.char '-' :: .char ' ' :: text : Text).dropWhile isWordChar = .char ' ' :: text :=
    rfl
  have hnone : wordKind? ['-'] = none := by decide
  refine of_not_isWordChar (by decide) fun position => ?_
  rw [tokensFrom_blank (by decide), tokensFrom_of_takeWhile hrun (List.cons_ne_nil _ _),
    hdrop, hnone, tokensFrom_blank (by decide)]
  exact h.tokens _

end CutsAs

/-- Cutting a text into symbols and cutting it into tokens once its noise is blank go side by side,
if it has no quotes and no noise but for the sign between the words of a phrase. -/
theorem cutsAs_blankNoise {text : Text}
    (hchars : ∀ c ∈ text, c ≠ quoteMark ∧ (isNoise c = true → c = '<' ∨ c = '>'))
    {read : Text × List Symbol} (h : scan text = some read) : CutsAs (blankNoise text) read := by
  refine scan_induction (motive := fun text read =>
    (∀ c ∈ text, c ≠ quoteMark ∧ (isNoise c = true → c = '<' ∨ c = '>')) →
      CutsAs (blankNoise text) read) ?nil ?followedBy ?operand ?blank ?sign h hchars
  case nil =>
    intro _
    refine ⟨rfl, fun position => ?_⟩
    rw [blankNoise, List.map_nil, List.dropWhile_nil, tokensFrom]
    rfl
  case followedBy =>
    intro text inner ih hchars
    refine (ih fun c hc => hchars c ?_).followedBy
    exact List.mem_cons_of_mem _ (List.mem_cons_of_mem _ (List.mem_cons_of_mem _ hc))
  case operand =>
    intro c text inner hc ih hchars
    obtain ⟨⟨hquote, hnoise⟩, htext⟩ := List.forall_mem_cons.1 hchars
    have hkept : ¬isNoise c = true := by
      intro hnoisy
      rcases hnoise hnoisy with rfl | rfl
      · exact absurd hc (by decide)
      · exact absurd hc (by decide)
    rw [blankNoise, List.map_cons, if_neg hkept]
    exact (ih htext).operand (isWordChar_of_isOperandChar hc hquote)
  case blank =>
    intro c text inner hblank ih hchars
    have hstill : isBlank (if isNoise c then .char ' ' else c) = true := by
      split
      · decide
      · exact hblank
    exact (ih (List.forall_mem_cons.1 hchars).2).blank hstill
  case sign =>
    intro c symbol text inner hsymbol ih hchars
    obtain ⟨hnoise, -⟩ := tokens_of_sign? hsymbol
    rw [blankNoise, List.map_cons, if_neg (by rw [hnoise]; decide)]
    exact (ih (List.forall_mem_cons.1 hchars).2).sign hsymbol

end Notation

/-! ### Compiled texts -/

/-- The tokens of the text of a clean tree are those that its symbols are taken for. -/
theorem Tree.IsClean.tokens_clean_render {tree : Tree} (h : tree.IsClean) :
    (Query.tokens (Query.clean tree.render)).map Token.unplaced =
      Notation.tokensOf tree.symbols := by
  have hchars : ∀ c ∈ tree.render,
      (Query.isControl c = false ∧ c ≠ '+' ∧ c ≠ '#') ∧
        c ≠ Query.quoteMark ∧ (Query.isNoise c = true → c = '<' ∨ c = '>') := by
    refine Tree.forall_mem_render (by decide) fun word hword c hc => ?_
    have hclean := h.word word hword
    have hnoise := hclean.isNoise c hc
    refine ⟨⟨hclean.isControl c hc, ?_, ?_⟩, ?_, fun hnoisy => ?_⟩
    · rintro rfl
      exact absurd hnoise (by decide)
    · rintro rfl
      exact absurd hnoise (by decide)
    · rintro rfl
      exact absurd (hclean.isWordChar _ hc) (by decide)
    · rw [hnoise] at hnoisy
      cases hnoisy
  have hclean : Query.clean tree.render = Query.blankNoise tree.render :=
    Query.clean_eq_blankNoise (fun c hc => (hchars c hc).1.1)
      (fun hmem => (hchars _ hmem).1.2.1 rfl) fun hmem => (hchars _ hmem).1.2.2 rfl
  obtain ⟨read, hread, hsymbols⟩ := Option.map_eq_some_iff.1 (symbols?_render h.isOperandWord)
  rw [hclean, ← hsymbols]
  exact (Notation.cutsAs_blankNoise (fun c hc => (hchars c hc).2) hread).tokens 0

/-- The text of a clean tree is read as the tokens that its symbols are taken for. -/
theorem Tree.IsClean.tree?_clean {tree : Tree} (h : tree.IsClean) :
    Query.tree? (Query.clean tree.render) = Tree.ofTokens? (Notation.tokensOf tree.symbols) := by
  rw [Query.tree?, ← Tree.ofTokens?_map_unplaced, h.tokens_clean_render]

end TsQuery
