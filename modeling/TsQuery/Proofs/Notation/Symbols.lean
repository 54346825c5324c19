import TsQuery.Proofs.Notation.Reader
import TsQuery.Proofs.Tree.Basic
import TsQuery.Query.Render

/-!
# The symbols of a rendered tree

`Tree.symbols` lists the symbols that the text of a tree consists of.  Cutting the text into symbols
gives exactly these (`Tree.symbols?_render`), for every tree whose words can be operands.

A part of a text is cut by itself as long as nothing after it extends its last operand; this is
`ScansAs`, and rendering keeps it since it puts a blank between any two operands.
-/

namespace TsQuery

namespace Notation

/-- A word that can be an operand. -/
def IsOperandWord (word : Text) : Prop :=
  word ≠ [] ∧ ∀ c ∈ word, isOperandChar c = true

/-- A text that does not extend an operand before it. -/
def EndsOperand (text : Text) : Prop :=
  ∀ c ∈ text.head?, isOperandChar c = false

/-- Lists of symbols with an operator between each two. -/
def chained (operator : Operator) (members : List (List Symbol)) : List Symbol :=
  [.operator operator].intercalate members

/-- Symbols in parentheses. -/
def enclosed (symbols : List Symbol) : List Symbol :=
  .opening :: (symbols ++ [.closing])

/-! ### One symbol -/

theorem endsOperand_nil : EndsOperand [] := nofun

theorem endsOperand_cons {c : CodePoint} (h : isOperandChar c = false) (text : Text) :
    EndsOperand (c :: text) := by
  rintro d ⟨⟩
  exact h

theorem isOperandChar_of_isBlank {c : CodePoint} (h : isBlank c = true) :
    isOperandChar c = false := by
  rw [isOperandChar, h, Bool.not_true, Bool.false_and]

/-- A character that is a symbol by itself belongs to no operand and is not blank. -/
theorem isOperandChar_of_sign? {c : CodePoint} {symbol : Symbol} (h : sign? c = some symbol) :
    isOperandChar c = false ∧ isBlank c = false ∧ c ≠ '<' := by
  unfold sign? at h
  split at h
  · decide
  · decide
  · decide
  · decide
  · decide
  · cases h

theorem scan_cons {c : CodePoint} (hc : c ≠ '<') (text : Text) :
    scan (c :: text) =
      if isOperandChar c then (scan text).map fun read => (c :: read.1, read.2)
      else if isBlank c then (scan text).map (afterSymbols [])
      else (sign? c).bind fun symbol => (scan text).map (afterSymbols [symbol]) := by
  rw [scan]
  rintro _ rfl
  exact absurd rfl hc

/-- Characters of an operand are put in front of the operand that the text begins with. -/
theorem scan_append {word : Text} (h : ∀ c ∈ word, isOperandChar c = true) (text : Text) :
    scan (word ++ text) = (scan text).map fun read => (word ++ read.1, read.2) := by
  induction word with
  | nil => exact Option.map_id'.symm
  | cons c word ih =>
    obtain ⟨hc, hword⟩ := List.forall_mem_cons.1 h
    have hlt : c ≠ '<' := by
      rintro rfl
      exact absurd hc (by decide)
    rw [List.cons_append, scan_cons hlt, if_pos hc, ih hword, Option.map_map]
    rfl

@[simp] theorem symbols?_nil : symbols? [] = some [] := rfl

theorem symbols?_afterSymbols (read : Option (Text × List Symbol)) (before : List Symbol) :
    ((read.map (afterSymbols before)).map fun read => consOperand read.1 read.2) =
      (read.map fun read => consOperand read.1 read.2).map (before ++ ·) := by
  cases read with
  | none => rfl
  | some read => rfl

/-- Blanks before a text change nothing. -/
theorem symbols?_of_isBlank {c : CodePoint} (h : isBlank c = true) (text : Text) :
    symbols? (c :: text) = symbols? text := by
  have hlt : c ≠ '<' := by
    rintro rfl
    exact absurd h (by decide)
  rw [symbols?, scan_cons hlt, if_neg (by rw [isOperandChar_of_isBlank h]; decide), if_pos h,
    symbols?_afterSymbols]
  exact Option.map_id'

/-- A character that is a symbol by itself is the first symbol of its text. -/
theorem symbols?_of_sign? {c : CodePoint} {symbol : Symbol} (h : sign? c = some symbol)
    (text : Text) : symbols? (c :: text) = (symbols? text).map ([symbol] ++ ·) := by
  obtain ⟨hoperand, hblank, hlt⟩ := isOperandChar_of_sign? h
  rw [symbols?, scan_cons hlt, if_neg (by rw [hoperand]; decide), if_neg (by rw [hblank]; decide),
    h, Option.bind_some, symbols?_afterSymbols]
  rfl

/-- The sign between the words of a phrase is the first symbol of its text. -/
theorem symbols?_followedBy (text : Text) :
    symbols? ('<' :: '-' :: '>' :: text) = (symbols? text).map ([.operator .followedBy] ++ ·) := by
  rw [symbols?, scan, symbols?_afterSymbols]
  rfl

/-- A text that does not extend an operand begins with the empty one. -/
theorem scan_of_endsOperand {text : Text} (h : EndsOperand text) :
    scan text = (symbols? text).map fun symbols => ([], symbols) := by
  have hafter (before : List Symbol) (read : Option (Text × List Symbol)) :
      read.map (afterSymbols before) =
        ((read.map (afterSymbols before)).map fun read => consOperand read.1 read.2).map
          fun symbols => ([], symbols) := by
    cases read with
    | none => rfl
    | some read => rfl
  rw [symbols?]
  unfold scan
  split
  · rfl
  · exact hafter _ _
  · next c text _ =>
    have hc : ¬isOperandChar c = true := by
      rw [h c rfl]
      decide
    rw [if_neg hc]
    split
    · exact hafter _ _
    · cases sign? c with
      | none => rfl
      | some symbol => exact hafter _ _

/-- An operand that nothing extends is the first symbol of its text. -/
theorem symbols?_operand {word rest : Text} (hword : IsOperandWord word)
    (hrest : EndsOperand rest) :
    symbols? (word ++ rest) = (symbols? rest).map ([.operand word] ++ ·) := by
  have hcons (symbols : List Symbol) :
      consOperand (word ++ []) symbols = .operand word :: symbols := by
    rw [List.append_nil, consOperand, if_neg (by rw [List.isEmpty_iff]; exact hword.1)]
  rw [symbols?, scan_append hword.2, scan_of_endsOperand hrest, Option.map_map, Option.map_map]
  exact congrArg (Option.map · (symbols? rest)) (funext hcons)

/-- Induction along a text that is cut into symbols. -/
theorem scan_induction {motive : Text → Text × List Symbol → Prop} (nil : motive [] ([], []))
    (followedBy : ∀ text read, motive text read →
      motive ('<' :: '-' :: '>' :: text) (afterSymbols [.operator .followedBy] read))
    (operand : ∀ c text read, isOperandChar c = true → motive text read →
      motive (c :: text) (c :: read.1, read.2))
    (blank : ∀ c text read, isBlank c = true → motive text read →
      motive (c :: text) (afterSymbols [] read))
    (sign : ∀ c symbol text read, sign? c = some symbol → motive text read →
      motive (c :: text) (afterSymbols [symbol] read))
    {text : Text} {read : Text × List Symbol} (h : scan text = some read) : motive text read := by
  fun_induction scan text generalizing read with
  | case1 =>
    cases h
    exact nil
  | case2 text ih =>
    obtain ⟨inner, hinner, rfl⟩ := Option.map_eq_some_iff.1 h
    exact followedBy text inner (ih hinner)
  | case3 c text _ hoperand ih =>
    obtain ⟨inner, hinner, rfl⟩ := Option.map_eq_some_iff.1 h
    exact operand c text inner hoperand (ih hinner)
  | case4 c text _ _ hblank ih =>
    obtain ⟨inner, hinner, rfl⟩ := Option.map_eq_some_iff.1 h
    exact blank c text inner hblank (ih hinner)
  | case5 c text _ _ _ ih =>
    -- A `<` that begins no sign of a phrase is no symbol either, so the text would not be cut.
    obtain ⟨symbol, hsign, hmap⟩ := Option.bind_eq_some_iff.1 h
    obtain ⟨inner, hinner, rfl⟩ := Option.map_eq_some_iff.1 hmap
    exact sign c symbol text inner hsign (ih hinner)

/-! ### Parts of a text -/

/-- A text is cut into given symbols, whatever comes after it, as long as that does not extend an
operand. -/
def ScansAs (text : Text) (symbols : List Symbol) : Prop :=
  ∀ rest, EndsOperand rest → symbols? (text ++ rest) = (symbols? rest).map (symbols ++ ·)

/-- A text that stands between two operands and is one operator. -/
structure Separates (separator : Text) (operator : Operator) : Prop where
  ends : ∀ text, EndsOperand (separator ++ text)
  symbols : ∀ text,
    symbols? (separator ++ text) = (symbols? text).map ([.operator operator] ++ ·)

/-- An operator of one character separates with a blank on each side. -/
theorem separates_sign {c : CodePoint} {operator : Operator}
    (h : sign? c = some (.operator operator)) : Separates [.char ' ', c, .char ' '] operator where
  ends _ := endsOperand_cons (by decide) _
  symbols text := by
    change symbols? (' ' :: c :: ' ' :: text) = _
    rw [symbols?_of_isBlank (by decide), symbols?_of_sign? h, symbols?_of_isBlank (by decide)]

/-- The sign between the words of a phrase separates with a blank on each side. -/
theorem separates_followedBy : Separates [' ', '<', '-', '>', ' '] .followedBy where
  ends _ := endsOperand_cons (by decide) _
  symbols text := by
    change symbols? (' ' :: '<' :: '-' :: '>' :: ' ' :: text) = _
    rw [symbols?_of_isBlank (by decide), symbols?_followedBy, symbols?_of_isBlank (by decide)]

namespace ScansAs

theorem nil : ScansAs [] [] :=
  fun _ _ => Option.map_id'.symm

theorem operand {word : Text} (h : IsOperandWord word) : ScansAs word [.operand word] :=
  fun _ hrest => symbols?_operand h hrest

/-- The text of one part after another that ends before it. -/
theorem append {first second : Text} {left right : List Symbol} (hfirst : ScansAs first left)
    (hsecond : ScansAs second right)
    (hends : ∀ rest, EndsOperand rest → EndsOperand (second ++ rest)) :
    ScansAs (first ++ second) (left ++ right) := by
  intro rest hrest
  rw [List.append_assoc, hfirst _ (hends rest hrest), hsecond rest hrest, Option.map_map]
  exact congrArg (Option.map · (symbols? rest)) (funext fun symbols => (List.append_assoc ..).symm)

/-- A character that is a symbol by itself, and a text. -/
theorem cons {c : CodePoint} {symbol : Symbol} (h : sign? c = some symbol) {text : Text}
    {symbols : List Symbol} (htext : ScansAs text symbols) :
    ScansAs (c :: text) (symbol :: symbols) := by
  intro rest hrest
  rw [List.cons_append, symbols?_of_sign? h, htext rest hrest, Option.map_map]
  rfl

/-- A blank and a text. -/
theorem blank {c : CodePoint} (h : isBlank c = true) {text : Text} {symbols : List Symbol}
    (htext : ScansAs text symbols) : ScansAs (c :: text) symbols := by
  intro rest hrest
  rw [List.cons_append, symbols?_of_isBlank h, htext rest hrest]

/-- Texts with an operator between each two. -/
theorem joined {α : Type} {separator : Text} {operator : Operator}
    (hseparator : Separates separator operator) {members : List α} {f : α → Text}
    {g : α → List Symbol} (h : ∀ member ∈ members, ScansAs (f member) (g member)) :
    ScansAs (Text.joined separator (members.map f)) (chained operator (members.map g)) := by
  induction members with
  | nil => exact nil
  | cons member members ih =>
    obtain ⟨hmember, hmembers⟩ := List.forall_mem_cons.1 h
    cases members with
    | nil =>
      simpa only [Text.joined, chained, List.map_cons, List.map_nil, List.intercalate_singleton]
        using hmember
    | cons next more =>
      have hrest : ScansAs (separator ++ Text.joined separator ((next :: more).map f))
          ([.operator operator] ++ chained operator ((next :: more).map g)) := by
        intro rest hrest
        rw [List.append_assoc, hseparator.symbols, ih hmembers rest hrest, Option.map_map]
        exact congrArg (Option.map · (symbols? rest))
          (funext fun symbols => (List.append_assoc ..).symm)
      have happend := hmember.append hrest fun rest _ => by
        rw [List.append_assoc]
        exact hseparator.ends _
      simpa only [Text.joined, chained, List.map_cons, List.intercalate_cons_cons,
        List.append_assoc] using happend

/-- A text in parentheses. -/
theorem grouped {text : Text} {symbols : List Symbol} (h : ScansAs text symbols) :
    ScansAs (Tree.grouped text) (enclosed symbols) := by
  have hclosing : ScansAs [' ', ')'] [.closing] := blank (by decide) (cons rfl nil)
  have htext := h.append hclosing fun rest _ => endsOperand_cons (c := ' ') (by decide) _
  exact cons rfl (blank (by decide) htext)

end ScansAs

end Notation

/-! ### Trees -/

namespace Tree

open Notation

mutual

/-- The symbols of the text of a tree. -/
def symbols : Tree → List Symbol
  | term word => [.operand word]
  | phrase words => enclosed (chained .followedBy (words.map fun word => [.operand word]))
  | not operand =>
    .operator .not :: if operand.isCompound then enclosed operand.symbols else operand.symbols
  | and operands => chained .and (conjunctSymbols operands)
  | or operands => chained .or (disjunctSymbols operands)

/-- The symbols of operands as they stand in a conjunction. -/
def conjunctSymbols : List Tree → List (List Symbol)
  | [] => []
  | tree :: trees =>
    (if tree.isOr then enclosed tree.symbols else tree.symbols) :: conjunctSymbols trees

/-- The symbols of operands as they stand in a disjunction. -/
def disjunctSymbols : List Tree → List (List Symbol)
  | [] => []
  | tree :: trees => tree.symbols :: disjunctSymbols trees

end

theorem renderConjuncts_eq_map (trees : List Tree) :
    renderConjuncts trees =
      trees.map fun tree => if tree.isOr then grouped tree.render else tree.render := by
  induction trees with
  | nil => rfl
  | cons tree trees ih => rw [renderConjuncts, ih, List.map_cons]

theorem renderDisjuncts_eq_map (trees : List Tree) : renderDisjuncts trees = trees.map render := by
  induction trees with
  | nil => rfl
  | cons tree trees ih => rw [renderDisjuncts, ih, List.map_cons]

theorem conjunctSymbols_eq_map (trees : List Tree) :
    conjunctSymbols trees =
      trees.map fun tree => if tree.isOr then enclosed tree.symbols else tree.symbols := by
  induction trees with
  | nil => rfl
  | cons tree trees ih => rw [conjunctSymbols, ih, List.map_cons]

theorem disjunctSymbols_eq_map (trees : List Tree) :
    disjunctSymbols trees = trees.map symbols := by
  induction trees with
  | nil => rfl
  | cons tree trees ih => rw [disjunctSymbols, ih, List.map_cons]

/-- The text of a tree is cut into the symbols of the tree. -/
theorem scansAs_render {tree : Tree} (h : ∀ word ∈ tree.words, IsOperandWord word) :
    ScansAs tree.render tree.symbols := by
  induction tree using Tree.induct with
  | term word =>
    rw [render, symbols]
    exact .operand (h word (by rw [words_term]; exact List.mem_singleton_self word))
  | phrase words =>
    rw [render, symbols]
    rw [words_phrase] at h
    have hjoined := ScansAs.joined separates_followedBy (f := id)
      fun word hword => ScansAs.operand (h word hword)
    rw [List.map_id] at hjoined
    exact hjoined.grouped
  | not operand ih =>
    rw [render, symbols]
    rw [words_not] at h
    refine ScansAs.cons rfl ?_
    split
    · exact (ih h).grouped
    · exact ih h
  | and operands ih =>
    rw [render, symbols, renderConjuncts_eq_map, conjunctSymbols_eq_map]
    rw [words_and, List.forall_mem_flatMap] at h
    refine ScansAs.joined (separates_sign rfl) fun tree htree => ?_
    have hscan := ih tree htree (h tree htree)
    split
    · exact hscan.grouped
    · exact hscan
  | or operands ih =>
    rw [render, symbols, renderDisjuncts_eq_map, disjunctSymbols_eq_map]
    rw [words_or, List.forall_mem_flatMap] at h
    exact ScansAs.joined (separates_sign rfl) fun tree htree => ih tree htree (h tree htree)

/-- Cutting the text of a tree into symbols gives the symbols of the tree. -/
theorem symbols?_render {tree : Tree} (h : ∀ word ∈ tree.words, IsOperandWord word) :
    symbols? tree.render = some tree.symbols := by
  have hscan := scansAs_render h [] endsOperand_nil
  rwa [List.append_nil, symbols?_nil, Option.map_some, List.append_nil] at hscan

end Tree

end TsQuery
