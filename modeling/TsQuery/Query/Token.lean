import TsQuery.Text.Basic

/-!
# Tokens

A query is a sequence of words, quoted phrases, operators and parentheses. A token keeps the text it
was read from and the position of that text, counted in characters.
-/

namespace TsQuery

/-- What a token stands for; a phrase carries its words. -/
inductive TokenKind
  | word
  | phrase (words : List Text)
  | and
  | or
  | not
  | opening
  | closing
  deriving DecidableEq

/-- A piece of a query: its meaning, the text it was read from, and where that text begins. -/
structure Token where
  kind : TokenKind
  text : Text
  position : Nat
  deriving DecidableEq

namespace Token

/-- Whether a token is a word or a phrase. -/
def isOperand (token : Token) : Bool :=
  match token.kind with
  | .word | .phrase _ => true
  | _ => false

/-- The words that a token contributes. -/
def words (token : Token) : List Text :=
  match token.kind with
  | .word => [token.text]
  | .phrase words => words
  | _ => []

end Token

end TsQuery
