import TsQuery.Proofs.Tree.Basic

/-!
# Leaves under negations

A leaf is asked for or ruled out by the number of negations that it lies under.  `Tree.placedLeaves`
lists the leaves of a tree with that number; without the numbers the list is that of the leaves
(`Tree.map_snd_placedLeaves`).  A connective leaves the numbers alone and a negation adds one.
Splicing and collapsing move leaves into other nodes but neither lose nor reorder one and take none
out of a negation, so that combining trees puts their lists one after another
(`Connective.placedLeaves_combine`).
-/

namespace TsQuery

namespace Tree

mutual

/-- The leaves of a tree from left to right, each with the number of negations that it lies under,
given how many there are above the tree. -/
def placedLeaves (above : Nat) : Tree → List (Nat × Tree)
  | term word => [(above, term word)]
  | phrase words => [(above, phrase words)]
  | not operand => operand.placedLeaves (above + 1)
  | and operands => placedLeavesOf above operands
  | or operands => placedLeavesOf above operands

/-- The leaves of trees from left to right, each with the number of negations that it lies under. -/
def placedLeavesOf (above : Nat) : List Tree → List (Nat × Tree)
  | [] => []
  | tree :: trees => tree.placedLeaves above ++ placedLeavesOf above trees

end

/-- The placed leaves of a tree that may be absent. -/
def placedLeavesOption (above : Nat) : Option Tree → List (Nat × Tree)
  | none => []
  | some tree => tree.placedLeaves above

theorem placedLeavesOf_eq_flatMap (above : Nat) (trees : List Tree) :
    placedLeavesOf above trees = trees.flatMap (placedLeaves above) := by
  induction trees with
  | nil => rfl
  | cons tree trees ih => rw [placedLeavesOf, ih, List.flatMap_cons]

theorem placedLeavesOption_eq_flatMap (above : Nat) (tree : Option Tree) :
    placedLeavesOption above tree = tree.toList.flatMap (placedLeaves above) := by
  cases tree with
  | none => rfl
  | some tree => exact (List.append_nil _).symm

@[simp] theorem placedLeaves_not (above : Nat) (operand : Tree) :
    (not operand).placedLeaves above = operand.placedLeaves (above + 1) := by
  rw [placedLeaves]

/-- Without their numbers, the placed leaves of a tree are its leaves. -/
theorem map_snd_placedLeaves (above : Nat) (tree : Tree) :
    (tree.placedLeaves above).map Prod.snd = tree.leaves := by
  induction tree using Tree.induct generalizing above with
  | term word => rw [placedLeaves, leaves_term, List.map_singleton]
  | phrase words => rw [placedLeaves, leaves_phrase, List.map_singleton]
  | not operand ih => rw [placedLeaves_not, leaves_not, ih]
  | and operands ih =>
    rw [placedLeaves, placedLeavesOf_eq_flatMap, leaves_and, List.map_flatMap]
    exact List.flatMap_congr fun tree htree => ih tree htree above
  | or operands ih =>
    rw [placedLeaves, placedLeavesOf_eq_flatMap, leaves_or, List.map_flatMap]
    exact List.flatMap_congr fun tree htree => ih tree htree above

/-- Without their numbers, the placed leaves of a tree that may be absent are its leaves. -/
theorem map_snd_placedLeavesOption (above : Nat) (tree : Option Tree) :
    (placedLeavesOption above tree).map Prod.snd = leavesOption tree := by
  cases tree with
  | none => rfl
  | some tree => exact tree.map_snd_placedLeaves above

end Tree

namespace Connective

theorem placedLeaves_node (c : Connective) (above : Nat) (trees : List Tree) :
    (c.node trees).placedLeaves above = trees.flatMap (Tree.placedLeaves above) := by
  cases c with
  | and => rw [node, Tree.placedLeaves, Tree.placedLeavesOf_eq_flatMap]
  | or => rw [node, Tree.placedLeaves, Tree.placedLeavesOf_eq_flatMap]

/-- Splicing moves no leaf below a negation or out of one. -/
theorem flatMap_placedLeaves_operands (c : Connective) (above : Nat) (tree : Tree) :
    (c.operands tree).flatMap (Tree.placedLeaves above) = tree.placedLeaves above := by
  rcases c.eq_node_or_isNode_eq_false tree with ⟨trees, rfl⟩ | hnode
  · rw [operands_node, placedLeaves_node]
  · rw [operands_of_isNode_eq_false hnode, List.flatMap_singleton]

/-- Combining trees puts their placed leaves one after another. -/
theorem placedLeaves_combine (c : Connective) (above : Nat) (trees : List Tree) :
    (c.combine trees).placedLeaves above = trees.flatMap (Tree.placedLeaves above) := by
  have hflat : (trees.flatMap c.operands).flatMap (Tree.placedLeaves above) =
      trees.flatMap (Tree.placedLeaves above) := by
    rw [List.flatMap_assoc]
    exact congrArg trees.flatMap (funext (c.flatMap_placedLeaves_operands above))
  rcases c.combine_cases trees with ⟨tree, hsingle, hcombine⟩ | ⟨-, hcombine⟩
  · rw [hcombine, ← hflat, hsingle, List.flatMap_singleton]
  · rw [hcombine, placedLeaves_node, hflat]

/-- Combining trees puts their leaves one after another. -/
theorem leaves_combine (c : Connective) (trees : List Tree) :
    (c.combine trees).leaves = trees.flatMap Tree.leaves := by
  rw [← Tree.map_snd_placedLeaves 0, placedLeaves_combine, List.map_flatMap]
  simp only [Tree.map_snd_placedLeaves]

end Connective

end TsQuery
