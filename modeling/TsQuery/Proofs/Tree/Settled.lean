import TsQuery.Proofs.Tree.Canonical

/-!
# Double negations

Two negations right on top of each other cancel out.  `Tree.settled` carries this out from the
leaves up, and splices an operand into its parent when it becomes a node of the kind of the parent.
A canonical tree settles into a canonical one (`Tree.isCanonical_settled`) without double negations
(`Tree.hasSingleNegations_settled`), and only trees with double negations change
(`Tree.settled_eq_self`).
-/

namespace TsQuery

namespace Tree

/-- Whether a tree is a negation. -/
def isNot : Tree → Bool
  | not _ => true
  | _ => false

/-- The negation of a tree, which takes away a negation instead of putting another one on it. -/
def negation : Tree → Tree
  | not operand => operand
  | tree => not tree

/-- No negation stands directly under another one. -/
inductive HasSingleNegations : Tree → Prop
  | term (word : Text) : HasSingleNegations (term word)
  | phrase (words : List Text) : HasSingleNegations (phrase words)
  | not {operand : Tree} (inner : HasSingleNegations operand) (single : operand.isNot = false) :
      HasSingleNegations (not operand)
  | and {operands : List Tree} (inner : ∀ tree ∈ operands, HasSingleNegations tree) :
      HasSingleNegations (and operands)
  | or {operands : List Tree} (inner : ∀ tree ∈ operands, HasSingleNegations tree) :
      HasSingleNegations (or operands)

mutual

/-- A tree with its double negations taken away from the leaves up, and operands that become nodes
of the kind of their parent spliced into it. -/
def settled : Tree → Tree
  | term word => term word
  | phrase words => phrase words
  | not operand => operand.settled.negation
  | and operands => and ((settledOf operands).flatMap conjuncts)
  | or operands => or ((settledOf operands).flatMap disjuncts)

/-- Trees with their double negations taken away. -/
def settledOf : List Tree → List Tree
  | [] => []
  | tree :: trees => tree.settled :: settledOf trees

end

theorem settledOf_eq_map (trees : List Tree) : settledOf trees = trees.map settled := by
  induction trees with
  | nil => rfl
  | cons tree trees ih => rw [settledOf, ih, List.map_cons]

/-- A tree that is no negation is negated by a sign. -/
theorem negation_of_isNot {tree : Tree} (h : tree.isNot = false) : tree.negation = not tree := by
  cases tree with
  | not operand => cases h
  | _ => rfl

theorem HasSingleNegations.negation {tree : Tree} (h : tree.HasSingleNegations) :
    tree.negation.HasSingleNegations := by
  cases h with
  | term word => exact .not (.term word) rfl
  | phrase words => exact .not (.phrase words) rfl
  | not inner single => exact inner
  | and inner => exact .not (.and inner) rfl
  | or inner => exact .not (.or inner) rfl

theorem IsCanonical.negation {tree : Tree} (h : tree.IsCanonical) : tree.negation.IsCanonical := by
  cases h with
  | not canonical => exact canonical
  | term word => exact .not (.term word)
  | phrase words => exact .not (.phrase words)
  | and two canonical flat => exact .not (.and two canonical flat)
  | or two canonical flat => exact .not (.or two canonical flat)

end Tree

namespace Connective

theorem hasSingleNegations_node_iff (c : Connective) (trees : List Tree) :
    (c.node trees).HasSingleNegations ↔ ∀ tree ∈ trees, tree.HasSingleNegations := by
  cases c with
  | and =>
    constructor
    · rintro (_ | _ | _ | inner)
      exact inner
    · exact .and
  | or =>
    constructor
    · rintro (_ | _ | _ | _ | inner)
      exact inner
    · exact .or

/-- What a tree adds to a node around it has no more double negations than the tree. -/
theorem hasSingleNegations_operands (c : Connective) {tree : Tree} (h : tree.HasSingleNegations) :
    ∀ operand ∈ c.operands tree, operand.HasSingleNegations := by
  rcases c.eq_node_or_isNode_eq_false tree with ⟨trees, rfl⟩ | hnode
  · rw [operands_node]
    exact (c.hasSingleNegations_node_iff trees).1 h
  · rw [operands_of_isNode_eq_false hnode]
    intro operand hoperand
    rwa [List.mem_singleton.1 hoperand]

/-- Double negations of a node are taken away operand by operand. -/
theorem settled_node (c : Connective) (trees : List Tree) :
    (c.node trees).settled = c.node ((trees.map Tree.settled).flatMap c.operands) := by
  cases c with
  | and => rw [node, Tree.settled, Tree.settledOf_eq_map]; rfl
  | or => rw [node, Tree.settled, Tree.settledOf_eq_map]; rfl

/-- Two or more canonical trees are combined to a node, since splicing leaves two or more. -/
theorem combine_of_two_le (c : Connective) {trees : List Tree} (htwo : 2 ≤ trees.length)
    (h : ∀ tree ∈ trees, tree.IsCanonical) :
    c.combine trees = c.node (trees.flatMap c.operands) := by
  have hlength : trees.length ≤ (trees.flatMap c.operands).length := by
    clear htwo
    induction trees with
    | nil => exact Nat.le_refl 0
    | cons tree trees ih =>
      obtain ⟨htree, htrees⟩ := List.forall_mem_cons.1 h
      have hpos := List.length_pos_iff.2 (c.isCanonical_operands htree).1
      have hrest := ih htrees
      rw [List.flatMap_cons, List.length_append, List.length_cons]
      omega
  rcases c.combine_cases trees with ⟨tree, hsingle, -⟩ | ⟨-, hcombine⟩
  · rw [hsingle, List.length_singleton] at hlength
    omega
  · exact hcombine

/-- Double negations of a canonical node are taken away by combining its settled operands. -/
theorem settled_node_eq_combine (c : Connective) {trees : List Tree} (htwo : 2 ≤ trees.length)
    (h : ∀ tree ∈ trees, tree.settled.IsCanonical) :
    (c.node trees).settled = c.combine (trees.map Tree.settled) := by
  rw [settled_node, c.combine_of_two_le (by rwa [List.length_map]) (List.forall_mem_map.2 h)]

end Connective

namespace Tree

/-- A canonical tree settles into a canonical tree. -/
theorem isCanonical_settled {tree : Tree} (h : tree.IsCanonical) : tree.settled.IsCanonical := by
  have hnode (c : Connective) {trees : List Tree} (hc : (c.node trees).IsCanonical)
      (ih : ∀ tree ∈ trees, tree.IsCanonical → tree.settled.IsCanonical) :
      (c.node trees).settled.IsCanonical := by
    obtain ⟨htwo, htrees⟩ := (c.isCanonical_node_iff trees).1 hc
    have hsettled : ∀ tree ∈ trees, tree.settled.IsCanonical :=
      fun tree htree => ih tree htree (htrees tree htree).1
    have hne : trees.map settled ≠ [] := by
      intro hnil
      rw [List.map_eq_nil_iff] at hnil
      rw [hnil] at htwo
      exact absurd htwo (by decide)
    rw [c.settled_node_eq_combine htwo hsettled]
    exact c.isCanonical_combine hne (List.forall_mem_map.2 hsettled)
  induction tree using Tree.induct with
  | term word =>
    rw [settled]
    exact h
  | phrase words =>
    rw [settled]
    exact h
  | not operand ih =>
    rw [settled]
    cases h with
    | not canonical => exact (ih canonical).negation
  | and operands ih => exact hnode .and h ih
  | or operands ih => exact hnode .or h ih

/-- A settled tree has no double negations. -/
theorem hasSingleNegations_settled (tree : Tree) : tree.settled.HasSingleNegations := by
  have hnode (c : Connective) {trees : List Tree}
      (ih : ∀ tree ∈ trees, tree.settled.HasSingleNegations) :
      (c.node trees).settled.HasSingleNegations := by
    rw [c.settled_node, c.hasSingleNegations_node_iff]
    intro operand hoperand
    obtain ⟨inner, hinner, hmem⟩ := List.mem_flatMap.1 hoperand
    obtain ⟨tree, htree, rfl⟩ := List.mem_map.1 hinner
    exact c.hasSingleNegations_operands (ih tree htree) operand hmem
  induction tree using Tree.induct with
  | term word =>
    rw [settled]
    exact .term word
  | phrase words =>
    rw [settled]
    exact .phrase words
  | not operand ih =>
    rw [settled]
    exact ih.negation
  | and operands ih => exact hnode .and ih
  | or operands ih => exact hnode .or ih

/-- A canonical tree without double negations is settled. -/
theorem settled_eq_self {tree : Tree} (hcanonical : tree.IsCanonical)
    (h : tree.HasSingleNegations) : tree.settled = tree := by
  have hnode (c : Connective) {trees : List Tree} (hc : (c.node trees).IsCanonical)
      (hn : (c.node trees).HasSingleNegations)
      (ih : ∀ tree ∈ trees, tree.IsCanonical → tree.HasSingleNegations → tree.settled = tree) :
      (c.node trees).settled = c.node trees := by
    obtain ⟨-, htrees⟩ := (c.isCanonical_node_iff trees).1 hc
    have hsingle := (c.hasSingleNegations_node_iff trees).1 hn
    have hsame : trees.map settled = trees := by
      have hid : trees.map settled = trees.map fun tree => tree :=
        List.map_congr_left fun tree htree =>
          ih tree htree (htrees tree htree).1 (hsingle tree htree)
      rwa [List.map_id'] at hid
    have hflat : trees.flatMap c.operands = trees.flatMap fun tree => [tree] :=
      List.flatMap_congr fun tree htree =>
        Connective.operands_of_isNode_eq_false (htrees tree htree).2
    rw [c.settled_node, hsame, hflat, List.flatMap_singleton']
  induction tree using Tree.induct with
  | term word => rw [settled]
  | phrase words => rw [settled]
  | not operand ih =>
    rw [settled]
    cases hcanonical with
    | not canonical =>
      cases h with
      | not inner single => rw [ih canonical inner, negation_of_isNot single]
  | and operands ih => exact hnode .and hcanonical h ih
  | or operands ih => exact hnode .or hcanonical h ih

end Tree

end TsQuery
