import TsQuery.Proofs.Assembly.Step
import TsQuery.Proofs.Tree.Polarity

/-!
# Where the negations of a query end up

A leaf lies under as many negations of the tree as negations are pending when its token is read, in
the group being read and in the groups around it.  `Assembly.placedLeaves` lists the leaves of a
state with the negations they will lie under once every open group has ended, so that a pending
negation of a group counts for the groups inside of it.  Reading a token appends its leaf with the
number that is pending (`Assembly.placedLeaves_read`) and changes no other entry, and neither does
the end of the input (`Assembly.placedLeavesOption_tree?`).
-/

namespace TsQuery

/-- How many groups have a pending negation. -/
def pendingNegations (groups : List Group) : Nat :=
  groups.countP Group.negated

namespace Group

/-- The leaves of a group from left to right, each with the number of negations that it lies under,
given how many there are above the group. -/
def placedLeaves (above : Nat) (group : Group) : List (Nat × Tree) :=
  group.disjuncts.reverse.flatMap (Tree.placedLeaves above) ++
    group.conjuncts.reverse.flatMap (Tree.placedLeaves above)

@[simp] theorem placedLeaves_empty (above : Nat) : ({} : Group).placedLeaves above = [] := rfl

@[simp] theorem placedLeaves_flip (above : Nat) (group : Group) :
    group.flip.placedLeaves above = group.placedLeaves above := rfl

/-- Adding an operand appends its leaves, under one more negation if one is pending. -/
theorem placedLeaves_add (above : Nat) (group : Group) (operand : Option Tree) :
    (group.add operand).placedLeaves above =
      group.placedLeaves above ++
        Tree.placedLeavesOption (above + group.negated.toNat) operand := by
  cases operand with
  | none => exact (List.append_nil _).symm
  | some tree =>
    have hsign : (if group.negated then .not tree else tree : Tree).placedLeaves above =
        tree.placedLeaves (above + group.negated.toNat) := by
      cases group.negated with
      | false => rfl
      | true => exact Tree.placedLeaves_not above tree
    simp only [placedLeaves, add, List.reverse_cons, List.flatMap_append, List.flatMap_singleton,
      hsign, Tree.placedLeavesOption, List.append_assoc]

/-- Completing a disjunct moves no leaf. -/
theorem placedLeaves_endDisjunct (above : Nat) (group : Group) :
    group.endDisjunct.placedLeaves above = group.placedLeaves above := by
  unfold endDisjunct
  split
  · rfl
  · have hjoin := Connective.placedLeaves_combine .and above group.conjuncts.reverse
    simp only [Connective.combine] at hjoin
    simp only [placedLeaves, List.reverse_cons, List.flatMap_append, List.flatMap_singleton, hjoin,
      List.reverse_nil, List.flatMap_nil, List.append_nil]

/-- Once its disjunct is complete, a group has no conjunct left. -/
theorem conjuncts_endDisjunct (group : Group) : group.endDisjunct.conjuncts = [] := by
  unfold endDisjunct
  split
  · next hempty => exact List.isEmpty_iff.1 hempty
  · rfl

/-- The tree of a group that ends has the leaves of the group. -/
theorem placedLeavesOption_tree? (above : Nat) (group : Group) :
    Tree.placedLeavesOption above group.tree? = group.placedLeaves above := by
  have hend : group.endDisjunct.disjuncts.reverse.flatMap (Tree.placedLeaves above) =
      group.placedLeaves above := by
    rw [← placedLeaves_endDisjunct, placedLeaves, conjuncts_endDisjunct, List.reverse_nil,
      List.flatMap_nil, List.append_nil]
  unfold tree?
  split
  · next hnil =>
    rw [hnil] at hend
    exact hend
  · have hjoin := Connective.placedLeaves_combine .or above group.endDisjunct.disjuncts.reverse
    exact hjoin.trans hend

end Group

/-! ### States -/

theorem Token.placedLeavesOption_leaf? (above : Nat) (token : Token) :
    Tree.placedLeavesOption above token.leaf? = token.leaf?.toList.map (above, ·) := by
  cases hsome : token.leaf? with
  | none => rfl
  | some leaf =>
    rcases Token.leaf?_eq_some hsome with ⟨word, rfl⟩ | ⟨words, rfl, -⟩
    · rfl
    · rfl

namespace Assembly

/-- The leaves of groups around each other, from the inside out, listed from the outside in. -/
def enclosedLeaves : List Group → List (Nat × Tree)
  | [] => []
  | group :: around => enclosedLeaves around ++ group.placedLeaves (pendingNegations around)

/-- The leaves of a state from left to right, each with the number of negations that it
lies under. -/
def placedLeaves (state : Assembly) : List (Nat × Tree) :=
  state.ended.reverse.flatMap (Tree.placedLeaves 0) ++
    enclosedLeaves (state.group :: state.enclosing)

/-- How many negations are pending, in the group being read and in the groups around it. -/
def pending (state : Assembly) : Nat :=
  pendingNegations (state.group :: state.enclosing)

theorem pendingNegations_cons (group : Group) (around : List Group) :
    pendingNegations (group :: around) = pendingNegations around + group.negated.toNat := by
  rw [pendingNegations, List.countP_cons, pendingNegations]
  cases group.negated with
  | false => rfl
  | true => rfl

/-- A group that ends gives its leaves to the group around it. -/
theorem enclosedLeaves_add_tree? (inner outer : Group) (around : List Group) :
    enclosedLeaves (outer.add inner.tree? :: around) =
      enclosedLeaves (inner :: outer :: around) := by
  simp only [enclosedLeaves, Group.placedLeaves_add, Group.placedLeavesOption_tree?,
    pendingNegations_cons, List.append_assoc]

/-- Reading a token appends the leaf it stands for, under the negations that are pending, and moves
no other leaf. -/
theorem placedLeaves_read (state : Assembly) (token : Token) :
    (state.read token).placedLeaves =
      state.placedLeaves ++ token.leaf?.toList.map (state.pending, ·) := by
  refine state.read_cases token ?operand ?forget ?or ?not ?opening ?closing ?stray
  case operand =>
    intro _
    simp only [placedLeaves, enclosedLeaves, pending, pendingNegations_cons, withGroup,
      Group.placedLeaves_add, Token.placedLeavesOption_leaf?, List.append_assoc]
  case opening =>
    intro hleaf _
    simp only [placedLeaves, enclosedLeaves, opened, hleaf, Option.toList_none, List.map_nil,
      Group.placedLeaves_empty, List.append_nil]
  case closing =>
    intro hleaf outer rest henclosing
    rw [placedLeaves, placedLeaves, closed, henclosing, hleaf, enclosedLeaves_add_tree?]
    exact (List.append_nil _).symm
  case stray =>
    intro hleaf henclosing
    have htree := Group.placedLeavesOption_tree? 0 state.group
    rw [Tree.placedLeavesOption_eq_flatMap] at htree
    have hgroup : enclosedLeaves [state.group] = state.group.tree?.toList.flatMap
        (Tree.placedLeaves 0) := htree.symm
    simp only [placedLeaves, strayed, henclosing, hleaf, hgroup, Option.toList_none, List.map_nil,
      List.reverse_append, List.flatMap_append, List.append_nil]
    cases state.group.tree? with
    | none => exact List.append_nil _
    | some tree => exact List.append_nil _
  -- The remaining signs neither hold a leaf nor move one.
  all_goals
    intro hleaf
    simp only [placedLeaves, enclosedLeaves, withGroup, hleaf, Group.placedLeaves_add,
      Group.placedLeaves_endDisjunct, Group.placedLeaves_flip, Tree.placedLeavesOption,
      Option.toList_none, List.map_nil, List.append_nil]

/-- The leaves that tokens stand for, each with the number of negations that are pending when its
token is read, beginning in a given state. -/
def readLeaves (state : Assembly) : List Token → List (Nat × Tree)
  | [] => []
  | token :: tokens =>
    token.leaf?.toList.map (state.pending, ·) ++ (state.read token).readLeaves tokens

/-- Reading a sequence of tokens appends their leaves. -/
theorem placedLeaves_foldl_read (tokens : List Token) (state : Assembly) :
    (tokens.foldl read state).placedLeaves = state.placedLeaves ++ state.readLeaves tokens := by
  induction tokens generalizing state with
  | nil => exact (List.append_nil _).symm
  | cons token tokens ih =>
    rw [List.foldl_cons, ih, placedLeaves_read, readLeaves, List.append_assoc]

/-- Ending the open groups moves no leaf. -/
theorem placedLeaves_outermost (state : Assembly) :
    state.outermost.placedLeaves 0 = enclosedLeaves (state.group :: state.enclosing) := by
  obtain ⟨ended, group, enclosing, strays⟩ := state
  change (enclosing.foldl (fun inner outer => outer.add inner.tree?) group).placedLeaves 0 = _
  induction enclosing generalizing group with
  | nil => rfl
  | cons outer rest ih => rw [List.foldl_cons, ih, enclosedLeaves_add_tree?]

/-- The tree of all that was read has the leaves of the state. -/
theorem placedLeavesOption_tree? (state : Assembly) :
    Tree.placedLeavesOption 0 state.tree? = state.placedLeaves := by
  have hended : (state.outermost.tree?.toList ++ state.ended).reverse.flatMap
      (Tree.placedLeaves 0) = state.placedLeaves := by
    have htree := Group.placedLeavesOption_tree? 0 state.outermost
    rw [Tree.placedLeavesOption_eq_flatMap, placedLeaves_outermost] at htree
    rw [List.reverse_append, List.flatMap_append, placedLeaves, ← htree]
    cases state.outermost.tree? <;> rfl
  unfold tree?
  split
  · next hnil =>
    rw [hnil] at hended
    exact hended
  · have hjoin := Connective.placedLeaves_combine .and 0
      (state.outermost.tree?.toList ++ state.ended).reverse
    exact hjoin.trans hended

end Assembly

/-- The leaves of the tree lie under the negations that are pending at their tokens. -/
theorem Tree.placedLeavesOption_ofTokens? (tokens : List Token) :
    placedLeavesOption 0 (ofTokens? tokens) = ({} : Assembly).readLeaves tokens := by
  rw [ofTokens?, Assembly.placedLeavesOption_tree?, Assembly.ofTokens,
    Assembly.placedLeaves_foldl_read]
  exact List.nil_append _

end TsQuery
