import Mathlib.Data.List.Basic
import TsQuery.Query.Listing
import TsQuery.Query.Tree

/-!
# A reader of the notation that queries are compiled to

The notation of text search queries by itself, as a second side for what is rendered: nothing here
refers to how trees are rendered or how queries are parsed.

A text is first cut into symbols.  An operand is a maximal run of characters that are neither blank
nor one of `& | ! ( ) < >`; the operators are `|`, `&`, `<->` and `!`.  Parentheses are then
resolved from the inside out: what stands between two of them is read by itself and is an operand of
what stands around them.  What has no parentheses left is cut at its loosest operators first, so
that `!` binds tightest, then `<->`, then `&`, then `|`.  A chain has as many members as there are;
a chain of words joined by `<->` is a phrase.  The empty text has no tree, and any other text that
does not fit is not read.
-/

namespace TsQuery

namespace Notation

/-- The operators, from the loosest to the tightest. -/
inductive Operator
  | or
  | and
  | followedBy
  | not
  deriving DecidableEq

/-- A symbol of a text. -/
inductive Symbol
  | operand (word : Text)
  | operator (operator : Operator)
  | opening
  | closing

/-! ### Cutting a text into symbols -/

/-- Whether a character can stand in an operand. -/
def isOperandChar (c : CodePoint) : Bool :=
  !isBlank c && !Listing.isOperatorChar c

/-- The symbol that a character is by itself. -/
def sign? : CodePoint → Option Symbol
  | '|' => some (.operator .or)
  | '&' => some (.operator .and)
  | '!' => some (.operator .not)
  | '(' => some .opening
  | ')' => some .closing
  | _ => none

/-- Symbols after an operand, which may be empty. -/
def consOperand (word : Text) (symbols : List Symbol) : List Symbol :=
  if word.isEmpty then symbols else .operand word :: symbols

/-- Symbols after a text that begins with an operand, which may be empty, and goes on
with symbols. -/
def afterSymbols (before : List Symbol) (read : Text × List Symbol) : Text × List Symbol :=
  ([], before ++ consOperand read.1 read.2)

/-- The operand that a text begins with, which may be empty, and the symbols that follow it. -/
def scan : Text → Option (Text × List Symbol)
  | [] => some ([], [])
  | '<' :: '-' :: '>' :: text => (scan text).map (afterSymbols [.operator .followedBy])
  | c :: text =>
    if isOperandChar c then (scan text).map fun read => (c :: read.1, read.2)
    else if isBlank c then (scan text).map (afterSymbols [])
    else (sign? c).bind fun symbol => (scan text).map (afterSymbols [symbol])

/-- The symbols of a text, if it consists of symbols and blanks. -/
def symbols? (text : Text) : Option (List Symbol) :=
  (scan text).map fun read => consOperand read.1 read.2

/-! ### Reading what has no parentheses -/

/-- An operand, a tree by now, or an operator. -/
inductive Item
  | operand (tree : Tree)
  | operator (operator : Operator)

/-- Whether an item is a given operator. -/
def Item.isOperator (operator : Operator) : Item → Bool
  | .operand _ => false
  | .operator other => other = operator

/-- The word that an operand of a phrase must be. -/
def word? : Tree → Option Text
  | .term word => some word
  | _ => none

/-- Reads an operand after negation signs. -/
def readUnary : List Item → Option Tree
  | [.operand tree] => some tree
  | .operator .not :: items => (readUnary items).map .not
  | _ => none

/-- Reads a chain of members between occurrences of an operator: a single member stands for itself,
several are joined. -/
def readChain (operator : Operator) (member : List Item → Option Tree)
    (join : List Tree → Option Tree) (items : List Item) : Option Tree :=
  ((items.splitOnP (Item.isOperator operator)).mapM member).bind fun trees =>
    match trees with
    | [tree] => some tree
    | trees => join trees

/-- Reads a chain of words that follow each other, or a single operand. -/
def readPhrase (items : List Item) : Option Tree :=
  readChain .followedBy readUnary (fun trees => (trees.mapM word?).map .phrase) items

/-- Reads a chain of conjuncts. -/
def readConjunction (items : List Item) : Option Tree :=
  readChain .and readPhrase (fun trees => some (.and trees)) items

/-- Reads a chain of disjuncts. -/
def readDisjunction (items : List Item) : Option Tree :=
  readChain .or readConjunction (fun trees => some (.or trees)) items

/-! ### Reading a text -/

/-- Reads symbols, given the items since the innermost parenthesis that is open and those before it
in the parentheses around, from the inside out. -/
def readSymbols (items : List Item) (around : List (List Item)) : List Symbol → Option Tree
  | [] => if around.isEmpty then readDisjunction items else none
  | .operand word :: symbols => readSymbols (items ++ [.operand (.term word)]) around symbols
  | .operator operator :: symbols => readSymbols (items ++ [.operator operator]) around symbols
  | .opening :: symbols => readSymbols [] (items :: around) symbols
  | .closing :: symbols =>
    match around with
    | [] => none
    | outer :: rest =>
      (readDisjunction items).bind fun tree =>
        readSymbols (outer ++ [.operand tree]) rest symbols

/-- The tree of a text, which the empty text does not have, if the text can be read. -/
def read? (text : Text) : Option (Option Tree) :=
  if text.isEmpty then some none
  else ((symbols? text).bind (readSymbols [] [])).map some

end Notation

end TsQuery
