import TsQuery.Query.Scan

/-!
# Vocabulary of a query

The lower-case words of a query, divided into those that a match should hold and those that it
should not. A negation excludes the next word or phrase and nothing else: it carries over an opening
parenthesis to the first operand inside, and any other token between forgets it. An operand that is
nothing but the name of an operator has no vocabulary.
-/

namespace TsQuery

/-- The words that a query asks for and the words that it rules out, as sets in code point order. A
word can be in both. -/
structure Vocabulary where
  included : List Text
  excluded : List Text
  deriving DecidableEq

namespace Vocabulary

/-- Words that name an operator. -/
def operatorWords : List Text :=
  [['&'], ['|'], ['!'], ['a', 'n', 'd'], ['o', 'r'], ['n', 'o', 't']]

/-- The lower-case words of an operand. -/
def operandWords (words : List Text) : List Text :=
  match words.map Text.lower with
  | [word] => if operatorWords.contains word then [] else [word]
  | words => words

/-- The words of a sequence of tokens with whether they are excluded, given whether a negation is
pending. -/
def marks (negated : Bool) : List Token → List (Bool × Text)
  | [] => []
  | token :: tokens =>
    match token.kind with
    | .not => marks (!negated) tokens
    | .opening => marks negated tokens
    | .and | .or | .closing => marks false tokens
    | .word | .phrase _ => (operandWords token.words).map (negated, ·) ++ marks false tokens

/-- The words among marked words that have a mark, as a set. -/
def marked (mark : Bool) (words : List (Bool × Text)) : List Text :=
  Text.sortedSet ((words.filter (·.1 == mark)).map (·.2))

/-- The vocabulary of a sequence of tokens. -/
def ofTokens (tokens : List Token) : Vocabulary :=
  let words := marks false tokens
  { included := marked false words, excluded := marked true words }

/-- The vocabulary of a clean query text. -/
def ofText (text : Text) : Vocabulary :=
  ofTokens (Query.tokens text)

/-- All words, included and excluded. -/
def all (vocabulary : Vocabulary) : List Text :=
  Text.sortedSet (vocabulary.included ++ vocabulary.excluded)

end Vocabulary

end TsQuery
