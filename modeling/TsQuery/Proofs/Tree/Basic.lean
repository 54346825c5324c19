import Mathlib.Data.List.Basic
import TsQuery.Query.Tree

/-!
# Connectives and leaves of a tree

Conjunction and disjunction are built alike, so what holds of both is stated once, of a
`Connective`: `Connective.combine` is `Tree.conjunction` or `Tree.disjunction`, and
`Connective.combine_cases` is all that later files need to know about it.

The leaves of a tree are its terms and phrases from left to right.
-/

namespace TsQuery

namespace Tree

/-- Induction over trees, with the hypothesis at every operand of a conjunction or disjunction. -/
@[elab_as_elim]
theorem induct {motive : Tree → Prop}
    (term : ∀ word, motive (term word))
    (phrase : ∀ words, motive (phrase words))
    (not : ∀ operand, motive operand → motive (not operand))
    (and : ∀ operands, (∀ tree ∈ operands, motive tree) → motive (and operands))
    (or : ∀ operands, (∀ tree ∈ operands, motive tree) → motive (or operands))
    (tree : Tree) : motive tree :=
  @Tree.rec motive (fun trees => ∀ tree ∈ trees, motive tree) term phrase not and or nofun
    (fun _ _ hhead htail => List.forall_mem_cons.2 ⟨hhead, htail⟩) tree

end Tree

/-! ### Connectives -/

/-- What joins the operands of an inner node. -/
inductive Connective
  | and
  | or
  deriving DecidableEq

namespace Connective

/-- The node of a connective over operands, as they are. -/
def node : Connective → List Tree → Tree
  | and => .and
  | or => .or

/-- Whether a tree is a node of a connective. -/
def isNode : Connective → Tree → Bool
  | and, .and _ => true
  | or, .or _ => true
  | _, _ => false

/-- The operands that a tree adds to a node of a connective around it. -/
def operands : Connective → Tree → List Tree
  | and => Tree.conjuncts
  | or => Tree.disjuncts

/-- The conjunction or disjunction of trees. -/
def combine : Connective → List Tree → Tree
  | and => Tree.conjunction
  | or => Tree.disjunction

/-- A node of the connective itself is spliced into the node around it. -/
@[simp] theorem operands_node (c : Connective) (trees : List Tree) :
    c.operands (c.node trees) = trees := by
  cases c <;> rfl

/-- Any other tree is one operand of the node around it. -/
theorem operands_of_isNode_eq_false {c : Connective} {tree : Tree} (h : c.isNode tree = false) :
    c.operands tree = [tree] := by
  cases c with
  | and =>
    cases tree with
    | and trees => cases h
    | _ => rfl
  | or =>
    cases tree with
    | or trees => cases h
    | _ => rfl

/-- A tree is a node of a given connective or it is not; either way its shape is known. -/
theorem eq_node_or_isNode_eq_false (c : Connective) (tree : Tree) :
    (∃ trees, tree = c.node trees) ∨ c.isNode tree = false := by
  cases c with
  | and =>
    cases tree with
    | and trees => exact Or.inl ⟨trees, rfl⟩
    | _ => exact Or.inr rfl
  | or =>
    cases tree with
    | or trees => exact Or.inl ⟨trees, rfl⟩
    | _ => exact Or.inr rfl

/-- The combination of trees is the only operand that splicing leaves, or the node over all that it
leaves. -/
theorem combine_cases (c : Connective) (trees : List Tree) :
    (∃ tree, trees.flatMap c.operands = [tree] ∧ c.combine trees = tree) ∨
      (trees.flatMap c.operands).length ≠ 1 ∧
        c.combine trees = c.node (trees.flatMap c.operands) := by
  cases c
  all_goals
    simp only [combine, operands, node, Tree.conjunction, Tree.disjunction]
    split
    · next tree hflat => exact Or.inl ⟨tree, hflat, rfl⟩
    · next hflat =>
      refine Or.inr ⟨fun hlength => ?_, rfl⟩
      obtain ⟨tree, htree⟩ := List.length_eq_one_iff.1 hlength
      exact hflat tree htree

/-- What holds of a single operand and of a node holds of a combination, if what they need holds of
all that splicing leaves. -/
theorem combine_of_operands (c : Connective) {P Q : Tree → Prop} {trees : List Tree}
    (h : ∀ tree ∈ trees, ∀ operand ∈ c.operands tree, P operand)
    (single : ∀ operand, P operand → Q operand)
    (node : ∀ operands, (∀ operand ∈ operands, P operand) → Q (c.node operands)) :
    Q (c.combine trees) := by
  have hflat : ∀ operand ∈ trees.flatMap c.operands, P operand := by
    intro operand hoperand
    obtain ⟨tree, htree, hmem⟩ := List.mem_flatMap.1 hoperand
    exact h tree htree operand hmem
  rcases c.combine_cases trees with ⟨tree, hsingle, hcombine⟩ | ⟨-, hcombine⟩
  · rw [hcombine]
    refine single tree (hflat tree ?_)
    rw [hsingle]
    exact List.mem_singleton_self tree
  · rw [hcombine]
    exact node _ hflat

end Connective

/-! ### Leaves -/

namespace Tree

mutual

/-- The terms and phrases of a tree, from left to right. -/
def leaves : Tree → List Tree
  | term word => [term word]
  | phrase words => [phrase words]
  | not operand => operand.leaves
  | and operands => leavesOf operands
  | or operands => leavesOf operands

/-- The terms and phrases of trees, from left to right. -/
def leavesOf : List Tree → List Tree
  | [] => []
  | tree :: trees => tree.leaves ++ leavesOf trees

end

/-- The leaves of a tree that may be absent. -/
def leavesOption : Option Tree → List Tree
  | none => []
  | some tree => tree.leaves

/-- The words of a leaf; an inner node has none of its own. -/
def leafWords : Tree → List Text
  | term word => [word]
  | phrase words => words
  | _ => []

/-- The words of the leaves of a tree, from left to right. -/
def words (tree : Tree) : List Text :=
  tree.leaves.flatMap leafWords

theorem leavesOf_eq_flatMap (trees : List Tree) : leavesOf trees = trees.flatMap leaves := by
  induction trees with
  | nil => rfl
  | cons tree trees ih => rw [leavesOf, ih, List.flatMap_cons]

@[simp] theorem leaves_term (word : Text) : (term word).leaves = [term word] := by
  rw [leaves]

@[simp] theorem leaves_phrase (words : List Text) : (phrase words).leaves = [phrase words] := by
  rw [leaves]

@[simp] theorem leaves_not (operand : Tree) : (not operand).leaves = operand.leaves := by
  rw [leaves]

@[simp] theorem leaves_and (operands : List Tree) :
    (and operands).leaves = operands.flatMap leaves := by
  rw [leaves, leavesOf_eq_flatMap]

@[simp] theorem leaves_or (operands : List Tree) :
    (or operands).leaves = operands.flatMap leaves := by
  rw [leaves, leavesOf_eq_flatMap]

/-- A leaf is a term or a phrase. -/
theorem leaf_of_mem_leaves {tree leaf : Tree} (h : leaf ∈ tree.leaves) :
    (∃ word, leaf = term word) ∨ ∃ words, leaf = phrase words := by
  induction tree using Tree.induct with
  | term word =>
    rw [leaves_term] at h
    exact Or.inl ⟨word, List.mem_singleton.1 h⟩
  | phrase words =>
    rw [leaves_phrase] at h
    exact Or.inr ⟨words, List.mem_singleton.1 h⟩
  | not operand ih =>
    rw [leaves_not] at h
    exact ih h
  | and operands ih =>
    rw [leaves_and] at h
    obtain ⟨tree, htree, hmem⟩ := List.mem_flatMap.1 h
    exact ih tree htree hmem
  | or operands ih =>
    rw [leaves_or] at h
    obtain ⟨tree, htree, hmem⟩ := List.mem_flatMap.1 h
    exact ih tree htree hmem

@[simp] theorem words_term (word : Text) : (term word).words = [word] := by
  rw [words, leaves_term, List.flatMap_singleton, leafWords]

@[simp] theorem words_phrase (words : List Text) : (phrase words).words = words := by
  rw [Tree.words, leaves_phrase, List.flatMap_singleton, leafWords]

@[simp] theorem words_not (operand : Tree) : (not operand).words = operand.words := by
  rw [words, leaves_not, words]

@[simp] theorem words_and (operands : List Tree) :
    (and operands).words = operands.flatMap words := by
  rw [words, leaves_and, List.flatMap_assoc]
  rfl

@[simp] theorem words_or (operands : List Tree) : (or operands).words = operands.flatMap words := by
  rw [words, leaves_or, List.flatMap_assoc]
  rfl

end Tree

end TsQuery
