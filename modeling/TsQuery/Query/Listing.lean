import TsQuery.Text.LowerCase
import TsQuery.Text.Replace

/-!
# Words of a compiled text

The lower-case words of a text in the syntax of text search queries, negated ones with the others.
Operators, parentheses and the sign between the words of a phrase are taken out. Texts written long
ago mark a phrase by `__PHRASE__` before its opening and after its closing parenthesis; such marks
are taken out too, while the same word standing elsewhere is a word.
-/

namespace TsQuery

namespace Listing

/-- The mark that older texts put around the parentheses of a phrase. -/
def phraseMark : Text :=
  ['_', '_', 'P', 'H', 'R', 'A', 'S', 'E', '_', '_']

/-- What follows a phrase mark at the beginning of a text, if the mark touches the outside of a
parenthesis: the character before it closes one, or the character after it opens one. -/
def afterMark? (before : Option CodePoint) (text : Text) : Option Text :=
  if phraseMark.isPrefixOf text then
    let rest := text.drop phraseMark.length
    if rest.head? = some '(' || before = some ')' then some rest else none
  else none

/-- A text with a blank for each mark of a phrase, given the character before the text. -/
def blankMarks (before : Option CodePoint) : Text → Text
  | [] => []
  | c :: text =>
    match _h : afterMark? before (c :: text) with
    | some rest => ' ' :: blankMarks (some '_') rest
    | none => c :: blankMarks (some c) text
termination_by text => text.length
decreasing_by
  · simp only [afterMark?] at _h
    split at _h
    · split at _h
      · cases _h
        simp only [List.length_drop, List.length_cons, phraseMark, List.length_nil]
        omega
      · cases _h
    · cases _h
  · exact Nat.lt_succ_self _

/-- The characters of operators and the parentheses. -/
def operatorCharacters : Text :=
  ['&', '|', '!', '(', ')', '<', '>']

/-- Whether a character belongs to an operator or is a parenthesis. -/
def isOperatorChar (c : CodePoint) : Bool :=
  operatorCharacters.contains c

/-- A compiled text with nothing but its words and blanks left. -/
def bare (text : Text) : Text :=
  ((blankMarks none text).replace '<' ['-', '>'] [' ']).map fun c =>
    if isOperatorChar c then ' ' else c

/-- The lower-case words of a compiled text, in order. -/
def words (text : Text) : List Text :=
  (bare text).pieces.map Text.lower

/-- The lower-case words of a compiled text, as a set. -/
def terms (text : Text) : List Text :=
  Text.sortedSet (words text)

end Listing

end TsQuery
