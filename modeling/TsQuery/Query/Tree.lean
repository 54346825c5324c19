import TsQuery.Text.Basic

/-!
# Syntax trees

A query is a term, a phrase of adjacent words, or a negation, conjunction or disjunction of queries.
Conjunction and disjunction take any number of operands; `conjunction` and `disjunction` build them
with the operands of an operand of the same kind spliced in, and collapse to the operand if only one
is left.
-/

namespace TsQuery

/-- A query as a Boolean combination of terms and phrases. -/
inductive Tree
  | term (word : Text)
  | phrase (words : List Text)
  | not (operand : Tree)
  | and (operands : List Tree)
  | or (operands : List Tree)

namespace Tree

/-- The operands that a tree adds to a conjunction around it. -/
def conjuncts : Tree → List Tree
  | and operands => operands
  | tree => [tree]

/-- The operands that a tree adds to a disjunction around it. -/
def disjuncts : Tree → List Tree
  | or operands => operands
  | tree => [tree]

/-- The conjunction of trees, conjunctions among them spliced in and a single operand left as
it is. -/
def conjunction (operands : List Tree) : Tree :=
  match operands.flatMap conjuncts with
  | [operand] => operand
  | flat => and flat

/-- The disjunction of trees, disjunctions among them spliced in and a single operand left as
it is. -/
def disjunction (operands : List Tree) : Tree :=
  match operands.flatMap disjuncts with
  | [operand] => operand
  | flat => or flat

/-- The tree of a phrase: nothing without words, a term for one word. -/
def ofPhrase? : List Text → Option Tree
  | [] => none
  | [word] => some (term word)
  | words => some (phrase words)

end Tree

end TsQuery
