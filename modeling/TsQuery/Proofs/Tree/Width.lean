import Mathlib
import TsQuery.Proofs.Notation.Symbols

/-!
# How much room a tree takes up in the text of a node

A tree that is a member of a node takes up its own text, the parentheses that a disjunction needs in
a conjunction, and a sign of the node with the blanks around it; that is its
`Connective.memberWidth`.  A node is as long as its members together, but for one sign
(`Connective.length_render_node`), and joining trees takes up no more room than they do
(`Connective.memberWidth_combine_le`).
-/

namespace TsQuery

/-- Joined texts are as long as the texts with a separator behind each, but for the last one. -/
theorem Text.length_joined (separator : Text) {texts : List Text} (h : texts ≠ []) :
    (joined separator texts).length + separator.length =
      (texts.map fun text => text.length + separator.length).sum := by
  induction texts with
  | nil => exact absurd rfl h
  | cons text texts ih =>
    cases texts with
    | nil => rw [joined, List.intercalate_singleton, List.map_singleton, List.sum_singleton]
    | cons next more =>
      have ih := ih (List.cons_ne_nil next more)
      rw [joined, List.intercalate_cons_cons, List.map_cons, List.sum_cons, ← ih, joined]
      simp only [List.length_append]
      omega

theorem Tree.length_grouped (text : Text) : (grouped text).length = text.length + 4 := by
  simp only [grouped, List.length_append, List.length_cons, List.length_nil]
  omega

namespace Connective

/-- How many characters a tree takes up in the text of a node: its own, the parentheses of a
disjunction in a conjunction, and a sign between blanks. -/
def memberWidth : Connective → Tree → Nat
  | and, tree => tree.render.length + (if tree.isOr then 4 else 0) + 3
  | or, tree => tree.render.length + 3

theorem length_render_le_memberWidth (c : Connective) (tree : Tree) :
    tree.render.length + 3 ≤ c.memberWidth tree := by
  cases c with
  | and => exact Nat.add_le_add_right (Nat.le_add_right _ _) 3
  | or => exact Nat.le_refl _

/-- A node gets no parentheses in a node of its own kind. -/
theorem memberWidth_node (c : Connective) (trees : List Tree) :
    c.memberWidth (c.node trees) = (c.node trees).render.length + 3 := by
  cases c with
  | and => rfl
  | or => rfl

/-- The text of a node is as long as its members take up, but for the sign behind the last one. -/
theorem length_render_node (c : Connective) {trees : List Tree} (h : trees ≠ []) :
    (c.node trees).render.length + 3 = (trees.map c.memberWidth).sum := by
  cases c with
  | and =>
    rw [node, Tree.render, Tree.renderConjuncts_eq_map]
    refine (Text.length_joined _ (mt List.map_eq_nil_iff.1 h)).trans (congrArg List.sum ?_)
    rw [List.map_map]
    refine List.map_congr_left fun tree _ => ?_
    simp only [Function.comp_apply, memberWidth]
    split
    · rw [Tree.length_grouped]
      rfl
    · rfl
  | or =>
    rw [node, Tree.render, Tree.renderDisjuncts_eq_map]
    refine (Text.length_joined _ (mt List.map_eq_nil_iff.1 h)).trans (congrArg List.sum ?_)
    rw [List.map_map]
    rfl

/-- What a tree adds to a node takes up no more room than the tree. -/
theorem sum_memberWidth_operands_le (c : Connective) (tree : Tree) :
    ((c.operands tree).map c.memberWidth).sum ≤ c.memberWidth tree := by
  rcases c.eq_node_or_isNode_eq_false tree with ⟨trees, rfl⟩ | hnode
  · rw [operands_node]
    rcases eq_or_ne trees [] with rfl | hne
    · exact Nat.zero_le _
    · rw [memberWidth_node, length_render_node c hne]
  · rw [operands_of_isNode_eq_false hnode, List.map_singleton, List.sum_singleton]

/-- Joining trees takes up no more room than the trees do. -/
theorem memberWidth_combine_le (c : Connective) {trees : List Tree} (h : trees ≠ []) :
    c.memberWidth (c.combine trees) ≤ (trees.map c.memberWidth).sum := by
  have hflat : ((trees.flatMap c.operands).map c.memberWidth).sum ≤
      (trees.map c.memberWidth).sum := by
    rw [List.map_flatMap, List.flatMap, List.sum_flatten, List.map_map]
    exact List.sum_le_sum fun tree _ => c.sum_memberWidth_operands_le tree
  rcases c.combine_cases trees with ⟨tree, hsingle, hcombine⟩ | ⟨-, hcombine⟩
  · rw [hsingle, List.map_singleton, List.sum_singleton] at hflat
    rwa [hcombine]
  · rw [hcombine, memberWidth_node]
    rcases eq_or_ne (trees.flatMap c.operands) [] with hnil | hne
    · -- Without operands the node is empty, and any member has at least the sign.
      obtain ⟨tree, more, rfl⟩ := List.exists_cons_of_ne_nil h
      have hempty : (c.node []).render.length = 0 := by
        cases c with
        | and => rfl
        | or => rfl
      have htree := c.length_render_le_memberWidth tree
      rw [hnil, hempty, List.map_cons, List.sum_cons]
      omega
    · rwa [length_render_node c hne]

/-- A conjunction has parentheses around a member where a disjunction has none. -/
theorem memberWidth_and_le (tree : Tree) : and.memberWidth tree ≤ or.memberWidth tree + 4 := by
  simp only [memberWidth]
  split
  · omega
  · omega

/-- A disjunction of one tree takes up no more room than the tree. -/
theorem memberWidth_disjunction_singleton_le (tree : Tree) :
    and.memberWidth (.disjunction [tree]) ≤ and.memberWidth tree := by
  have hcombine := or.memberWidth_combine_le (List.cons_ne_nil tree [])
  rw [List.map_singleton, List.sum_singleton] at hcombine
  rcases or.eq_node_or_isNode_eq_false tree with ⟨trees, rfl⟩ | hnode
  · -- The tree is a disjunction, so it has the parentheses that its disjunction may need.
    exact (memberWidth_and_le _).trans (Nat.add_le_add_right hcombine 4)
  · have heq : Tree.disjunction [tree] = tree := by
      have hflat : [tree].flatMap Tree.disjuncts = [tree] := by
        rw [List.flatMap_singleton]
        exact operands_of_isNode_eq_false hnode
      rw [Tree.disjunction, hflat]
    rw [heq]

/-- Three characters behind each tree but the last one are all but one of those that the parentheses
of the disjunction need. -/
theorem memberWidth_disjunction_le (tree : Tree) (trees : List Tree) :
    and.memberWidth (.disjunction (tree :: trees).reverse) ≤
      and.memberWidth tree + (trees.map fun tree => and.memberWidth tree + 3).sum + 1 := by
  cases trees with
  | nil => exact Nat.le_succ_of_le (memberWidth_disjunction_singleton_le tree)
  | cons next more =>
    have hne : (tree :: next :: more).reverse ≠ [] :=
      mt List.reverse_eq_nil_iff.1 (List.cons_ne_nil _ _)
    have hcombine := or.memberWidth_combine_le hne
    rw [List.map_reverse, List.sum_reverse, List.map_cons, List.map_cons, List.sum_cons,
      List.sum_cons] at hcombine
    have hparentheses := memberWidth_and_le (or.combine (tree :: next :: more).reverse)
    have hle (tree : Tree) : or.memberWidth tree ≤ and.memberWidth tree :=
      and.length_render_le_memberWidth tree
    have hmore : (more.map or.memberWidth).sum ≤
        (more.map fun tree => and.memberWidth tree + 3).sum :=
      List.sum_le_sum fun tree _ => Nat.le_add_right_of_le (hle tree)
    have htree := hle tree
    have hnext := hle next
    simp only [combine] at hcombine hparentheses
    rw [List.map_cons, List.sum_cons]
    omega

/-- A negation takes up its sign and parentheses that its operand may have had. -/
theorem memberWidth_not_le (tree : Tree) :
    and.memberWidth (.not tree) ≤ and.memberWidth tree + 5 := by
  have hnot : (Tree.not tree).isOr = false := rfl
  simp only [memberWidth, Tree.render, hnot, List.length_cons]
  split
  · rw [Tree.length_grouped]
    simp only [Bool.false_eq_true, if_false]
    omega
  · simp only [Bool.false_eq_true, if_false]
    omega

/-- The negation of a leaf takes up its sign. -/
theorem memberWidth_not_of_isCompound_eq_false {tree : Tree} (h : tree.isCompound = false) :
    and.memberWidth (.not tree) ≤ and.memberWidth tree + 1 := by
  have hnot : (Tree.not tree).isOr = false := rfl
  simp only [memberWidth, Tree.render, hnot, h, List.length_cons, Bool.false_eq_true, if_false]
  omega

end Connective

end TsQuery
