import TsQuery.Query.Tree

/-!
# The text of a tree

Operators between operands have a blank on each side, and so have parentheses inside; a negation
sign stands right before its operand. Parentheses enclose every phrase, a disjunction inside a
conjunction, and a conjunction or disjunction under a negation.
-/

namespace TsQuery

namespace Tree

/-- A text in parentheses. -/
def grouped (text : Text) : Text :=
  (['(', ' '] : Text) ++ text ++ ([' ', ')'] : Text)

/-- Whether a tree is a disjunction. -/
def isOr : Tree → Bool
  | or _ => true
  | _ => false

/-- Whether a tree is a conjunction or disjunction. -/
def isCompound : Tree → Bool
  | and _ | or _ => true
  | _ => false

mutual

/-- The text of a tree in the syntax of text search queries. -/
def render : Tree → Text
  | term word => word
  | phrase words => grouped (Text.joined [' ', '<', '-', '>', ' '] words)
  | not operand => '!' :: if operand.isCompound then grouped operand.render else operand.render
  | and operands => Text.joined [' ', '&', ' '] (renderConjuncts operands)
  | or operands => Text.joined [' ', '|', ' '] (renderDisjuncts operands)

/-- The texts of operands as they stand in a conjunction. -/
def renderConjuncts : List Tree → List Text
  | [] => []
  | tree :: trees =>
    (if tree.isOr then grouped tree.render else tree.render) :: renderConjuncts trees

/-- The texts of operands as they stand in a disjunction. -/
def renderDisjuncts : List Tree → List Text
  | [] => []
  | tree :: trees => tree.render :: renderDisjuncts trees

end

/-- The text of a tree that may be absent. -/
def renderOption : Option Tree → Text
  | none => []
  | some tree => tree.render

end Tree

end TsQuery
