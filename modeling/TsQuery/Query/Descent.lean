import TsQuery.Query.Assembly

/-!
# Reading a query by descent

The grammar of a query has a level for each way to join operands, and a query can be read by calls
from one level to the next: the query calls for disjunctions, a disjunction for conjunctions, a
conjunction for operands with their negation signs, which call for what stands behind the signs, and
a group calls for a disjunction again.  All of them share one cursor over the tokens and decide by
the kind of the next token alone, so that a descent needs no more of its past than the calls that
wait for a tree.

A step may take the token at the cursor without having looked at it, relying on what the calls above
have seen.  If there is none, because the cursor is behind the last token, then the descent breaks
off: it has no next state.  A group is opened for whatever is neither a word nor a phrase where an
operand begins, and the query passes over whatever its disjunction did not want.

The trees are those of `Assembly`, which reads the same tokens in one pass without calls.
-/

namespace TsQuery

/-- A place in a sequence of tokens, with the tokens handed out on the way there, latest first. -/
structure Cursor where
  tokens : List Token
  index : Nat := 0
  taken : List Token := []

namespace Cursor

/-- The kind of the next token; behind the last one there is none. -/
def next? (cursor : Cursor) : Option TokenKind :=
  cursor.tokens[cursor.index]?.map Token.kind

/-- The next token and the place behind it. -/
def take? (cursor : Cursor) : Option (Token × Cursor) :=
  cursor.tokens[cursor.index]?.map fun token =>
    (token, { cursor with index := cursor.index + 1, taken := token :: cursor.taken })

end Cursor

namespace Descent

/-- What a descent is doing: the work of one level, with what the level has gathered so far, or
handing a tree back to the level that called for it.  The levels of a group are told how many groups
are open. -/
inductive Task
  | query (trees : List Tree)
  | disjunction (depth : Nat) (trees : List Tree)
  | conjunction (depth : Nat) (trees : List Tree)
  | unary (depth : Nat) (signs : Nat)
  | primary (depth : Nat)
  | group (depth : Nat) (token : Token)
  | handing (tree : Option Tree)

/-- A level that waits for a tree, with what it has gathered so far. -/
inductive Call
  | query (trees : List Tree)
  | disjunction (depth : Nat) (trees : List Tree)
  | conjunction (depth : Nat) (trees : List Tree)
  | unary (signs : Nat)
  | group

end Descent

/-- The state of a descent: the cursor, what is being done, the levels that wait for it from the
inside out, and the tokens that the query has passed over, latest first. -/
structure Descent where
  cursor : Cursor
  task : Descent.Task
  calls : List Descent.Call := []
  strays : List Token := []

namespace Descent

/-- Whether a conjunction ends before a token of this kind, or at the end. -/
def endsConjunction : Option TokenKind → Bool
  | none | some .or | some .closing => true
  | _ => false

/-- The combination of what a level has gathered; there is none of nothing. -/
def combined? (combine : List Tree → Tree) (trees : List Tree) : Option Tree :=
  if trees.isEmpty then none else some (combine trees)

/-- A tree behind a run of negation signs, two of which cancel out. -/
def signed (signs : Nat) (tree : Tree) : Tree :=
  if signs % 2 = 1 then .not tree else tree

/-- The state in which a tree is handed back. -/
def handing (state : Descent) (tree : Option Tree) : Descent :=
  { state with task := .handing tree }

/-- The state in which a level has been called. -/
def calling (state : Descent) (task : Task) (call : Call) : Descent :=
  { state with task, calls := call :: state.calls }

/-- The state in which the next token has been taken, whatever it is. -/
def taking (state : Descent) (task : Task) : Option Descent :=
  state.cursor.take?.map fun (_, cursor) => { state with cursor, task }

/-- The state in which the innermost of the waiting levels has got a tree. -/
def resume (state : Descent) (tree : Option Tree) (calls : List Call) : Call → Option Descent
  | .query trees =>
    let state := { state with task := .query (trees ++ tree.toList), calls }
    match state.cursor.next? with
    | none => some state
    | some _ => state.cursor.take?.map fun (token, cursor) =>
      { state with cursor, strays := token :: state.strays }
  | .disjunction depth trees =>
    let state := { state with calls }
    if state.cursor.next? = some .or then state.taking (.disjunction depth (trees ++ tree.toList))
    else some (state.handing (combined? Tree.disjunction (trees ++ tree.toList)))
  | .conjunction depth trees =>
    some { state with task := .conjunction depth (trees ++ tree.toList), calls }
  | .unary signs => some { state with task := .handing (tree.map (signed signs)), calls }
  | .group =>
    let state := { state with calls }
    if state.cursor.next? = some .closing then state.taking (.handing tree) else some state

/-- The next state.  A tree that nothing waits for is the end of the descent. -/
def step (state : Descent) : Option Descent :=
  match state.task with
  | .query trees =>
    match state.cursor.next? with
    | none => some (state.handing (combined? Tree.conjunction trees))
    | some _ => some (state.calling (.disjunction 0 []) (.query trees))
  | .disjunction depth trees =>
    some (state.calling (.conjunction depth []) (.disjunction depth trees))
  | .conjunction depth trees =>
    if endsConjunction state.cursor.next? then
      some (state.handing (combined? Tree.conjunction trees))
    else if state.cursor.next? = some .and then state.taking (.conjunction depth trees)
    else some (state.calling (.unary depth 0) (.conjunction depth trees))
  | .unary depth signs =>
    if state.cursor.next? = some .not then state.taking (.unary depth (signs + 1))
    else if endsConjunction state.cursor.next? ∨ state.cursor.next? = some .and then
      some (state.handing none)
    else some (state.calling (.primary depth) (.unary signs))
  | .primary depth =>
    state.cursor.take?.map fun (token, cursor) =>
      let task := match token.kind with
        | .word => .handing (some (.term token.text))
        | .phrase words => .handing (Tree.ofPhrase? words)
        | _ => .group depth token
      { state with cursor, task }
  | .group depth _ =>
    if maxDepth ≤ depth then some (state.handing none)
    else some (state.calling (.disjunction (depth + 1) []) .group)
  | .handing tree =>
    match state.calls with
    | [] => some state
    | call :: calls => state.resume tree calls call

/-- The state after a number of steps, unless the descent breaks off before. -/
def run : Nat → Descent → Option Descent
  | 0, state => some state
  | steps + 1, state => state.step.bind (run steps)

/-- The state before the first of a sequence of tokens. -/
def start (tokens : List Token) : Descent :=
  { cursor := { tokens }, task := .query [] }

end Descent

end TsQuery
