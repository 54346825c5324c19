import TsQuery.Proofs.Tree.Basic
import TsQuery.Query.Render

/-!
# How deep the parentheses of a tree nest

The text of a tree encloses in parentheses every phrase, a disjunction inside a conjunction, and a
conjunction or disjunction under a negation; `Tree.depth` counts how many of them are around each
other.  Joining trees costs no more than what each of them needs as a member
(`Connective.depth_combine_le`), since a tree that is spliced in already stood as a member of its
own node.
-/

namespace TsQuery

namespace Tree

mutual

/-- How deep the parentheses of the text of a tree nest. -/
def depth : Tree → Nat
  | term _ => 0
  | phrase _ => 1
  | not operand => if operand.isCompound then operand.depth + 1 else operand.depth
  | and operands => conjunctsDepth operands
  | or operands => disjunctsDepth operands

/-- How deep the parentheses of operands nest as they stand in a conjunction. -/
def conjunctsDepth : List Tree → Nat
  | [] => 0
  | tree :: trees => max (if tree.isOr then tree.depth + 1 else tree.depth) (conjunctsDepth trees)

/-- How deep the parentheses of operands nest as they stand in a disjunction. -/
def disjunctsDepth : List Tree → Nat
  | [] => 0
  | tree :: trees => max tree.depth (disjunctsDepth trees)

end

/-- The depth of what stands one after another. -/
def deepest (depths : List Nat) : Nat :=
  depths.foldr max 0

theorem deepest_le_iff {depths : List Nat} {bound : Nat} :
    deepest depths ≤ bound ↔ ∀ depth ∈ depths, depth ≤ bound := by
  induction depths with
  | nil => exact iff_of_true (Nat.zero_le bound) nofun
  | cons depth depths ih =>
    rw [List.forall_mem_cons, ← ih]
    exact Nat.max_le

/-- How deep the parentheses of a tree nest as it stands under a negation. -/
def negatedDepth (tree : Tree) : Nat :=
  if tree.isCompound then tree.depth + 1 else tree.depth

theorem depth_not (operand : Tree) : (not operand).depth = operand.negatedDepth := by
  rw [depth, negatedDepth]

theorem negatedDepth_le (tree : Tree) : tree.negatedDepth ≤ tree.depth + 1 := by
  rw [negatedDepth]
  split
  · exact Nat.le_refl _
  · exact Nat.le_succ _

end Tree

namespace Connective

/-- How deep the parentheses of a tree nest as it stands in a node of a connective. -/
def memberDepth : Connective → Tree → Nat
  | and, tree => if tree.isOr then tree.depth + 1 else tree.depth
  | or, tree => tree.depth

theorem depth_le_memberDepth (c : Connective) (tree : Tree) : tree.depth ≤ c.memberDepth tree := by
  cases c with
  | and =>
    rw [memberDepth]
    split
    · exact Nat.le_succ _
    · exact Nat.le_refl _
  | or => exact Nat.le_refl _

/-- A tree needs parentheses under a negation wherever it does in a node. -/
theorem memberDepth_le_negatedDepth (c : Connective) (tree : Tree) :
    c.memberDepth tree ≤ tree.negatedDepth := by
  cases c with
  | and =>
    rw [memberDepth, Tree.negatedDepth]
    cases tree with
    | and operands => exact Nat.le_succ _
    | _ => exact Nat.le_refl _
  | or =>
    rw [memberDepth, Tree.negatedDepth]
    split
    · exact Nat.le_succ _
    · exact Nat.le_refl _

/-- The parentheses of a node nest as deep as those of its members. -/
theorem depth_node (c : Connective) (trees : List Tree) :
    (c.node trees).depth = Tree.deepest (trees.map c.memberDepth) := by
  cases c with
  | and =>
    rw [node, Tree.depth]
    induction trees with
    | nil => rfl
    | cons tree trees ih => rw [Tree.conjunctsDepth, ih]; rfl
  | or =>
    rw [node, Tree.depth]
    induction trees with
    | nil => rfl
    | cons tree trees ih => rw [Tree.disjunctsDepth, ih]; rfl

theorem depth_node_le_iff {c : Connective} {trees : List Tree} {bound : Nat} :
    (c.node trees).depth ≤ bound ↔ ∀ tree ∈ trees, c.memberDepth tree ≤ bound := by
  rw [depth_node, Tree.deepest_le_iff, List.forall_mem_map]

/-- What a tree adds to a node needs no more parentheses there than the tree itself would. -/
theorem memberDepth_operands_le (c : Connective) {tree : Tree} {bound : Nat}
    (h : c.memberDepth tree ≤ bound) :
    ∀ operand ∈ c.operands tree, c.memberDepth operand ≤ bound := by
  rcases c.eq_node_or_isNode_eq_false tree with ⟨trees, rfl⟩ | hnode
  · rw [operands_node]
    exact depth_node_le_iff.1 (Nat.le_trans (c.depth_le_memberDepth _) h)
  · rw [operands_of_isNode_eq_false hnode]
    intro operand hoperand
    rwa [List.mem_singleton.1 hoperand]

/-- The parentheses of a combination nest no deeper than those of its members. -/
theorem depth_combine_le (c : Connective) {trees : List Tree} {bound : Nat}
    (h : ∀ tree ∈ trees, c.memberDepth tree ≤ bound) : (c.combine trees).depth ≤ bound :=
  c.combine_of_operands (Q := fun tree => tree.depth ≤ bound)
    (fun tree htree => c.memberDepth_operands_le (h tree htree))
    (fun operand hoperand => Nat.le_trans (c.depth_le_memberDepth operand) hoperand)
    fun _ hoperands => depth_node_le_iff.2 hoperands

end Connective

end TsQuery
