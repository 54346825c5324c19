import TsQuery.Log
import TsQuery.Query.Assembly
import TsQuery.Query.Clean
import TsQuery.Query.Refusal
import TsQuery.Query.Render
import TsQuery.Query.Vocabulary

/-!
# Compiling a query

A value that is accepted as a query is cleaned, read as a tree and written in the syntax of text
search queries; its vocabulary is taken from the same tokens. Nothing but acceptance can fail.
-/

namespace TsQuery

/-- A compiled query: its text and its vocabulary. -/
structure Compiled where
  text : Text
  vocabulary : Vocabulary
  deriving DecidableEq

namespace Query

/-- The tree of a clean query text, if it holds an operand. -/
def tree? (text : Text) : Option Tree :=
  Tree.ofTokens? (tokens text)

/-- The compiled text of a clean query text. -/
def compileText (text : Text) : Text :=
  Tree.renderOption (tree? text)

/-- The vocabulary of a query text as it was typed. -/
def vocabulary (text : Text) : Vocabulary :=
  Vocabulary.ofText (clean text)

/-- The compiled form of a query text as it was typed. -/
def compiled (text : Text) : Compiled :=
  { text := compileText (clean text), vocabulary := vocabulary text }

/-- Compiles a value that is accepted as a query. -/
def compile (limit : Int) (value : Json) : Except Refusal Compiled :=
  (accept limit value).map compiled

/-- The vocabulary of a value that is accepted as a query. -/
def extractTerms (limit : Int) (value : Json) : Except Refusal Vocabulary :=
  (accept limit value).map vocabulary

/-- The record of a closing parenthesis without a group. -/
def strayRecord (token : Token) : LogRecord :=
  ⟨.debug, "Skipping unmatched '" ++ token.text ++ s!"' at {token.position}"⟩

/-- What compiling a query text puts on record: the stray parentheses, then the result. -/
def compileLog (text : Text) : Log :=
  let strays := (Assembly.ofTokens (tokens (clean text))).strays.reverse
  let target := compileText (clean text)
  strays.map strayRecord ++
    [⟨.debug, "Compiled query " ++ text.quoted ++ " -> " ++ target.quoted⟩]

end Query

namespace Vocabulary

/-- The sets of a vocabulary as members of a JSON object. -/
def toMembers (vocabulary : Vocabulary) : List (String × Json) :=
  [("include_terms", .ofTexts vocabulary.included), ("exclude_terms", .ofTexts vocabulary.excluded)]

end Vocabulary

namespace Compiled

/-- A compiled query as members of a JSON object. -/
def toMembers (compiled : Compiled) : List (String × Json) :=
  ("compiled_text", .string compiled.text) :: compiled.vocabulary.toMembers

end Compiled

end TsQuery
