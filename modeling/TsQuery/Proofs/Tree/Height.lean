import TsQuery.Proofs.Tree.Depth

/-!
# How high a tree is

The height of a tree is the number of nodes on the longest way from its root to a leaf.  Joining
trees adds at most one node to it (`Connective.height_combine_le`), since a tree that is spliced in
gives up its own.
-/

namespace TsQuery

namespace Tree

mutual

/-- How many nodes are on the longest way from the root of a tree to a leaf, both counted. -/
def height : Tree → Nat
  | term _ => 1
  | phrase _ => 1
  | not operand => operand.height + 1
  | and operands => greatestHeight operands + 1
  | or operands => greatestHeight operands + 1

/-- The height of the highest of trees. -/
def greatestHeight : List Tree → Nat
  | [] => 0
  | tree :: trees => max tree.height (greatestHeight trees)

end

theorem greatestHeight_le_iff {trees : List Tree} {bound : Nat} :
    greatestHeight trees ≤ bound ↔ ∀ tree ∈ trees, tree.height ≤ bound := by
  induction trees with
  | nil => exact iff_of_true (Nat.zero_le bound) nofun
  | cons tree trees ih =>
    rw [List.forall_mem_cons, ← ih, greatestHeight]
    exact Nat.max_le

end Tree

namespace Connective

/-- A node is higher than its members. -/
theorem height_node_le_iff {c : Connective} {trees : List Tree} {bound : Nat} :
    (c.node trees).height ≤ bound + 1 ↔ ∀ tree ∈ trees, tree.height ≤ bound := by
  have hheight : (c.node trees).height = Tree.greatestHeight trees + 1 := by
    cases c with
    | and => rw [node, Tree.height]
    | or => rw [node, Tree.height]
  rw [hheight, Nat.add_le_add_iff_right, Tree.greatestHeight_le_iff]

/-- What a tree adds to a node is no higher than the tree. -/
theorem height_operands_le (c : Connective) {tree : Tree} {bound : Nat} (h : tree.height ≤ bound) :
    ∀ operand ∈ c.operands tree, operand.height ≤ bound := by
  rcases c.eq_node_or_isNode_eq_false tree with ⟨trees, rfl⟩ | hnode
  · rw [operands_node]
    exact height_node_le_iff.1 (Nat.le_trans h (Nat.le_succ bound))
  · rw [operands_of_isNode_eq_false hnode]
    exact List.forall_mem_singleton.2 h

/-- A combination is at most one node higher than its members. -/
theorem height_combine_le (c : Connective) {trees : List Tree} {bound : Nat}
    (h : ∀ tree ∈ trees, tree.height ≤ bound) : (c.combine trees).height ≤ bound + 1 :=
  c.combine_of_operands (Q := fun tree => tree.height ≤ bound + 1)
    (fun tree htree => c.height_operands_le (h tree htree))
    (fun _ hoperand => Nat.le_trans hoperand (Nat.le_succ bound))
    fun _ hoperands => height_node_le_iff.2 hoperands

end Connective

end TsQuery
