import TsQuery.Query.Token
import TsQuery.Query.Tree

/-!
# From tokens to a tree

Any sequence of tokens is a query. The tokens are read one by one into a state that holds the group
being read and the groups around it. Operands side by side are joined by a conjunction, which binds
tighter than a disjunction; a negation applies to the operand right after its run of signs, and two
of them cancel out.

What a strict grammar would refuse is read as follows. A negation without an operand is forgotten,
and so are repeated and dangling operators. A group that is still open at the end ends there. A
closing parenthesis without a group ends the disjunction so far, and the disjunctions ended that way
are joined by a conjunction. Empty groups and phrases vanish. A group deeper than `maxDepth` is not
opened: its operands belong to the group around it.
-/

namespace TsQuery

/-- How many groups can be open at a time. -/
def maxDepth : Nat := 32

/-- A group being read: the disjuncts that are complete and the conjuncts of the current one, latest
first, and whether the operand to come is negated. -/
structure Group where
  disjuncts : List Tree := []
  conjuncts : List Tree := []
  negated : Bool := false

namespace Group

/-- Adds an operand, negated if a negation is pending. Without an operand the negation
is forgotten. -/
def add (group : Group) : Option Tree → Group
  | none => { group with negated := false }
  | some tree =>
    { group with conjuncts := (if group.negated then .not tree else tree) :: group.conjuncts
                 negated := false }

/-- Completes the current disjunct; without a conjunct there is none. -/
def endDisjunct (group : Group) : Group :=
  if group.conjuncts.isEmpty then { group with negated := false }
  else { disjuncts := .conjunction group.conjuncts.reverse :: group.disjuncts }

/-- The tree of a group that ends here, unless the group is empty. -/
def tree? (group : Group) : Option Tree :=
  match group.endDisjunct.disjuncts with
  | [] => none
  | disjuncts => some (.disjunction disjuncts.reverse)

end Group

/-- The state between two tokens: the trees ended by stray closing parentheses, the group being
read, the groups around it from the inside out, and the stray parentheses themselves; lists have
their latest member first. -/
structure Assembly where
  ended : List Tree := []
  group : Group := {}
  enclosing : List Group := []
  strays : List Token := []

namespace Assembly

/-- Reads one token. -/
def read (state : Assembly) (token : Token) : Assembly :=
  match token.kind with
  | .word => { state with group := state.group.add (some (.term token.text)) }
  | .phrase words => { state with group := state.group.add (Tree.ofPhrase? words) }
  | .and => { state with group := state.group.add none }
  | .or => { state with group := state.group.endDisjunct }
  | .not => { state with group := { state.group with negated := !state.group.negated } }
  | .opening =>
    if state.enclosing.length < maxDepth then
      { state with group := {}, enclosing := state.group :: state.enclosing }
    else { state with group := state.group.add none }
  | .closing =>
    match state.enclosing with
    | outer :: rest => { state with group := outer.add state.group.tree?, enclosing := rest }
    | [] =>
      { state with ended := state.group.tree?.toList ++ state.ended
                   group := {}
                   strays := token :: state.strays }

/-- The state after a sequence of tokens. -/
def ofTokens (tokens : List Token) : Assembly :=
  tokens.foldl read {}

/-- The outermost group once every open group has ended. -/
def outermost (state : Assembly) : Group :=
  state.enclosing.foldl (fun inner outer => outer.add inner.tree?) state.group

/-- The tree of all that was read, if there was an operand. -/
def tree? (state : Assembly) : Option Tree :=
  match state.outermost.tree?.toList ++ state.ended with
  | [] => none
  | ended => some (.conjunction ended.reverse)

end Assembly

namespace Tree

/-- The tree that a sequence of tokens stands for, if it holds an operand. -/
def ofTokens? (tokens : List Token) : Option Tree :=
  (Assembly.ofTokens tokens).tree?

end Tree

end TsQuery
