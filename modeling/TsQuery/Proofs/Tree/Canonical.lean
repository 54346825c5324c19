import TsQuery.Proofs.Tree.Basic

/-!
# Canonical trees

A tree is canonical if every conjunction and disjunction in it joins at least two operands and none
of its own kind.  Combining splices only one level, so it yields a canonical tree only out of
canonical ones (`Connective.isCanonical_combine`), and there it changes nothing about a tree that
stands alone (`Connective.combine_singleton`).
-/

namespace TsQuery

namespace Tree

/-- Every conjunction has two or more operands and none that is a conjunction, every disjunction has
two or more operands and none that is a disjunction, at every depth. -/
inductive IsCanonical : Tree → Prop
  | term (word : Text) : IsCanonical (term word)
  | phrase (words : List Text) : IsCanonical (phrase words)
  | not {operand : Tree} (canonical : IsCanonical operand) : IsCanonical (not operand)
  | and {operands : List Tree} (two : 2 ≤ operands.length)
      (canonical : ∀ tree ∈ operands, IsCanonical tree)
      (flat : ∀ tree ∈ operands, Connective.and.isNode tree = false) : IsCanonical (and operands)
  | or {operands : List Tree} (two : 2 ≤ operands.length)
      (canonical : ∀ tree ∈ operands, IsCanonical tree)
      (flat : ∀ tree ∈ operands, Connective.or.isNode tree = false) : IsCanonical (or operands)

end Tree

namespace Connective

/-- What makes a node canonical, for either connective. -/
theorem isCanonical_node_iff (c : Connective) (trees : List Tree) :
    (c.node trees).IsCanonical ↔
      2 ≤ trees.length ∧ ∀ tree ∈ trees, tree.IsCanonical ∧ c.isNode tree = false := by
  cases c with
  | and =>
    constructor
    · rintro (_ | _ | _ | ⟨htwo, hcanonical, hflat⟩)
      exact ⟨htwo, fun tree htree => ⟨hcanonical tree htree, hflat tree htree⟩⟩
    · rintro ⟨htwo, h⟩
      exact .and htwo (fun tree htree => (h tree htree).1) fun tree htree => (h tree htree).2
  | or =>
    constructor
    · rintro (_ | _ | _ | _ | ⟨htwo, hcanonical, hflat⟩)
      exact ⟨htwo, fun tree htree => ⟨hcanonical tree htree, hflat tree htree⟩⟩
    · rintro ⟨htwo, h⟩
      exact .or htwo (fun tree htree => (h tree htree).1) fun tree htree => (h tree htree).2

/-- A canonical tree adds at least one operand to a node around it, and no node of that kind. -/
theorem isCanonical_operands (c : Connective) {tree : Tree} (h : tree.IsCanonical) :
    c.operands tree ≠ [] ∧
      ∀ operand ∈ c.operands tree, operand.IsCanonical ∧ c.isNode operand = false := by
  rcases c.eq_node_or_isNode_eq_false tree with ⟨trees, rfl⟩ | hnode
  · obtain ⟨htwo, htrees⟩ := (c.isCanonical_node_iff trees).1 h
    rw [operands_node]
    refine ⟨?_, htrees⟩
    rintro rfl
    exact absurd htwo (by decide)
  · rw [operands_of_isNode_eq_false hnode]
    refine ⟨List.cons_ne_nil _ _, fun operand hoperand => ?_⟩
    rw [List.mem_singleton.1 hoperand]
    exact ⟨h, hnode⟩

/-- Combining canonical trees, at least one of them, gives a canonical tree. -/
theorem isCanonical_combine (c : Connective) {trees : List Tree} (hne : trees ≠ [])
    (h : ∀ tree ∈ trees, tree.IsCanonical) : (c.combine trees).IsCanonical := by
  have hflat : ∀ operand ∈ trees.flatMap c.operands,
      operand.IsCanonical ∧ c.isNode operand = false := by
    intro operand hoperand
    obtain ⟨tree, htree, hmem⟩ := List.mem_flatMap.1 hoperand
    exact (c.isCanonical_operands (h tree htree)).2 operand hmem
  have hflat_ne : trees.flatMap c.operands ≠ [] := by
    obtain ⟨tree, htree⟩ := List.exists_mem_of_ne_nil trees hne
    exact fun hnil => (c.isCanonical_operands (h tree htree)).1
      (List.flatMap_eq_nil_iff.1 hnil tree htree)
  rcases c.combine_cases trees with ⟨tree, hsingle, hcombine⟩ | ⟨hlength, hcombine⟩
  · rw [hcombine]
    exact (hflat tree (by rw [hsingle]; exact List.mem_singleton_self tree)).1
  · rw [hcombine, isCanonical_node_iff]
    have hpos := List.length_pos_iff.2 hflat_ne
    exact ⟨by omega, hflat⟩

/-- A canonical tree combined with nothing else is left as it is. -/
theorem combine_singleton (c : Connective) {tree : Tree} (h : tree.IsCanonical) :
    c.combine [tree] = tree := by
  have hflat : [tree].flatMap c.operands = c.operands tree := List.flatMap_singleton ..
  rcases c.eq_node_or_isNode_eq_false tree with ⟨trees, rfl⟩ | hnode
  · rw [operands_node] at hflat
    have htwo := ((c.isCanonical_node_iff trees).1 h).1
    rcases c.combine_cases [c.node trees] with ⟨single, hsingle, -⟩ | ⟨-, hcombine⟩
    · rw [hflat] at hsingle
      rw [hsingle] at htwo
      exact absurd htwo (by simp)
    · rw [hcombine, hflat]
  · rw [operands_of_isNode_eq_false hnode] at hflat
    rcases c.combine_cases [tree] with ⟨single, hsingle, hcombine⟩ | ⟨hlength, -⟩
    · rw [hflat] at hsingle
      rw [hcombine, List.singleton_inj.1 hsingle]
    · rw [hflat] at hlength
      exact absurd rfl hlength

/-- What is spliced decides what trees are combined to. -/
theorem combine_congr (c : Connective) {left right : List Tree}
    (h : left.flatMap c.operands = right.flatMap c.operands) :
    c.combine left = c.combine right := by
  cases c with
  | and =>
    simp only [operands] at h
    simp only [combine, Tree.conjunction, h]
  | or =>
    simp only [operands] at h
    simp only [combine, Tree.disjunction, h]

/-- A combination of canonical trees adds to a node around it what the trees themselves would. -/
theorem operands_combine (c : Connective) {trees : List Tree}
    (h : ∀ tree ∈ trees, tree.IsCanonical) :
    c.operands (c.combine trees) = trees.flatMap c.operands := by
  rcases c.combine_cases trees with ⟨tree, hsingle, hcombine⟩ | ⟨-, hcombine⟩
  · have hmem : tree ∈ trees.flatMap c.operands := by
      rw [hsingle]
      exact List.mem_singleton_self tree
    obtain ⟨around, haround, hoperand⟩ := List.mem_flatMap.1 hmem
    have hnode := ((c.isCanonical_operands (h around haround)).2 tree hoperand).2
    rw [hcombine, hsingle, operands_of_isNode_eq_false hnode]
  · rw [hcombine, operands_node]

/-- Combining canonical trees block by block gives what combining all of them gives. -/
theorem combine_flatten (c : Connective) {blocks : List (List Tree)}
    (h : ∀ block ∈ blocks, ∀ tree ∈ block, tree.IsCanonical) :
    c.combine (blocks.map c.combine) = c.combine blocks.flatten := by
  refine c.combine_congr ?_
  induction blocks with
  | nil => rfl
  | cons block blocks ih =>
    obtain ⟨hblock, hblocks⟩ := List.forall_mem_cons.1 h
    rw [List.map_cons, List.flatMap_cons, c.operands_combine hblock, ih hblocks,
      List.flatten_cons, List.flatMap_append]

/-- Combining canonical trees part by part gives what combining all of them gives. -/
theorem combine_append (c : Connective) {left right : List Tree}
    (hleft : ∀ tree ∈ left, tree.IsCanonical) (hright : ∀ tree ∈ right, tree.IsCanonical) :
    c.combine (left ++ right) = c.combine [c.combine left, c.combine right] := by
  have hblocks : ∀ block ∈ [left, right], ∀ tree ∈ block, tree.IsCanonical :=
    List.forall_mem_cons.2 ⟨hleft, List.forall_mem_singleton.2 hright⟩
  have hflatten := c.combine_flatten hblocks
  rw [List.flatten_cons, List.flatten_cons, List.flatten_nil, List.append_nil] at hflatten
  exact hflatten.symm

end Connective

end TsQuery
