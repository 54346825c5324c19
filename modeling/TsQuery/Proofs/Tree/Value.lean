import TsQuery.Proofs.Tree.Canonical

/-!
# Boolean value of a tree

An assignment gives a truth value to every sequence of words; a word by itself is a sequence of one.
A tree then has a value, and combining trees has the value of the connective over theirs
(`Connective.value_combine`): neither splicing nor collapsing changes what a query means.  Between
canonical trees a connective is also free of grouping: in whatever blocks they are combined, one
tree comes out (`Connective.combine_grouped`).
-/

namespace TsQuery

/-- A truth value for every word, as a sequence of one, and every sequence of words. -/
abbrev Assignment := List Text → Bool

/-- The truth value of a connective over truth values. -/
def Connective.evaluate : Connective → List Bool → Bool
  | and, values => values.all id
  | or, values => values.any id

namespace Tree

mutual

/-- The truth value of a tree under an assignment. -/
def value (holds : Assignment) : Tree → Bool
  | term word => holds [word]
  | phrase words => holds words
  | not operand => !operand.value holds
  | and operands => Connective.and.evaluate (valuesOf holds operands)
  | or operands => Connective.or.evaluate (valuesOf holds operands)

/-- The truth values of trees under an assignment. -/
def valuesOf (holds : Assignment) : List Tree → List Bool
  | [] => []
  | tree :: trees => tree.value holds :: valuesOf holds trees

end

theorem valuesOf_eq_map (holds : Assignment) (trees : List Tree) :
    valuesOf holds trees = trees.map (value holds) := by
  induction trees with
  | nil => rfl
  | cons tree trees ih => rw [valuesOf, ih, List.map_cons]

end Tree

namespace Connective

/-- A node has the value of its connective over the values of the operands. -/
theorem value_node (c : Connective) (holds : Assignment) (trees : List Tree) :
    (c.node trees).value holds = c.evaluate (trees.map (Tree.value holds)) := by
  cases c with
  | and => rw [node, Tree.value, Tree.valuesOf_eq_map]
  | or => rw [node, Tree.value, Tree.valuesOf_eq_map]

@[simp] theorem evaluate_singleton (c : Connective) (b : Bool) : c.evaluate [b] = b := by
  cases c <;> cases b <;> rfl

/-- A connective over concatenated lists is the connective over its values on each of them. -/
theorem evaluate_flatMap {α : Type} (c : Connective) (f : α → List Bool) (l : List α) :
    c.evaluate (l.flatMap f) = c.evaluate (l.map fun x => c.evaluate (f x)) := by
  cases c with
  | and => simp only [evaluate, List.all_flatMap, List.all_map, Function.comp_def, id_eq]
  | or => simp only [evaluate, List.any_flatMap, List.any_map, Function.comp_def, id_eq]

/-- The operands that a tree adds to a node around it have, together, the value of the tree. -/
theorem evaluate_operands (c : Connective) (holds : Assignment) (tree : Tree) :
    c.evaluate ((c.operands tree).map (Tree.value holds)) = tree.value holds := by
  rcases c.eq_node_or_isNode_eq_false tree with ⟨trees, rfl⟩ | hnode
  · rw [operands_node, value_node]
  · rw [operands_of_isNode_eq_false hnode, List.map_singleton, evaluate_singleton]

/-- Combining trees has the value of the connective over their values. -/
theorem value_combine (c : Connective) (holds : Assignment) (trees : List Tree) :
    (c.combine trees).value holds = c.evaluate (trees.map (Tree.value holds)) := by
  have hflat : c.evaluate ((trees.flatMap c.operands).map (Tree.value holds)) =
      c.evaluate (trees.map (Tree.value holds)) := by
    rw [List.map_flatMap, evaluate_flatMap]
    simp only [evaluate_operands]
  rcases c.combine_cases trees with ⟨tree, hsingle, hcombine⟩ | ⟨-, hcombine⟩
  · rw [hcombine, ← hflat, hsingle, List.map_singleton, evaluate_singleton]
  · rw [hcombine, value_node, hflat]

/-! ### Grouping -/

/-- Combining canonical trees, at least one of them, gives a canonical tree with the value of the
connective over their values, and the same tree if they are first combined in blocks of neighbours,
however they are split into blocks. -/
theorem combine_grouped (c : Connective) {trees : List Tree} (hne : trees ≠ [])
    (h : ∀ tree ∈ trees, tree.IsCanonical) :
    (c.combine trees).IsCanonical ∧
      (∀ holds : Assignment,
        (c.combine trees).value holds = c.evaluate (trees.map (Tree.value holds))) ∧
      ∀ blocks : List (List Tree), blocks.flatten = trees →
        c.combine (blocks.map c.combine) = c.combine trees := by
  refine ⟨c.isCanonical_combine hne h, fun holds => c.value_combine holds trees, ?_⟩
  intro blocks hblocks
  have hcanonical : ∀ block ∈ blocks, ∀ tree ∈ block, tree.IsCanonical := by
    intro block hblock tree htree
    exact h tree (by rw [← hblocks]; exact List.mem_flatten.2 ⟨block, hblock, htree⟩)
  rw [c.combine_flatten hcanonical, hblocks]

/-- The trees of `a`, `b & c` and `d | !e`. -/
def neighbours : List Tree :=
  [.term "a", .and [.term "b", .term "c"], .or [.term "d", .not (.term "e")]]

/-- In either kind of node one of the neighbours is spliced in, whether it stands in a block with
others or alone in its block. -/
theorem combine_grouped_of_neighbours :
    neighbours ≠ [] ∧ (∀ tree ∈ neighbours, tree.IsCanonical) ∧
      and.combine [and.combine [.term "a", .and [.term "b", .term "c"]],
          and.combine [.or [.term "d", .not (.term "e")]]] =
        .and [.term "a", .term "b", .term "c", .or [.term "d", .not (.term "e")]] ∧
      or.combine [or.combine [.term "a", .and [.term "b", .term "c"]],
          or.combine [.or [.term "d", .not (.term "e")]]] =
        .or [.term "a", .and [.term "b", .term "c"], .term "d", .not (.term "e")] ∧
      (and.combine neighbours).IsCanonical ∧ (or.combine neighbours).IsCanonical ∧
      ∀ holds : Assignment, (or.combine neighbours).value holds =
        (holds ["a"] || (holds ["b"] && holds ["c"]) || (holds ["d"] || !holds ["e"])) := by
  have hne : neighbours ≠ [] := List.cons_ne_nil _ _
  have hcanonical : ∀ tree ∈ neighbours, tree.IsCanonical := by
    have hand : (Tree.and [.term "b", .term "c"]).IsCanonical :=
      .and (by decide) (by simp [Tree.IsCanonical.term]) (by decide)
    have hor : (Tree.or [.term "d", .not (.term "e")]).IsCanonical :=
      .or (by decide) (by simp [Tree.IsCanonical.term, Tree.IsCanonical.not]) (by decide)
    simp [neighbours, Tree.IsCanonical.term, hand, hor]
  obtain ⟨hand, -, hands⟩ := combine_grouped and hne hcanonical
  obtain ⟨hor, hvalue, hors⟩ := combine_grouped or hne hcanonical
  refine ⟨hne, hcanonical, ?_, ?_, hand, hor, fun holds => ?_⟩
  · exact hands [[.term "a", .and [.term "b", .term "c"]], [.or [.term "d", .not (.term "e")]]] rfl
  · exact hors [[.term "a", .and [.term "b", .term "c"]], [.or [.term "d", .not (.term "e")]]] rfl
  · rw [hvalue holds]
    simp [neighbours, evaluate, Tree.value, Tree.valuesOf, Bool.or_assoc]

end Connective

end TsQuery
