import TsQuery.Proofs.Assembly.Invariant
import TsQuery.Proofs.Tree.Depth

/-!
# Balanced tokens

The tree of tokens with balanced parentheses nests no deeper than the tokens do, whatever else is
wrong with them (`Tree.depth_le_of_nested`).  A group can hold what fits under a bound
(`Group.Fits`), and ending a group around which there is another one takes one pair of parentheses,
as many as its tree needs at most.
-/

namespace TsQuery

/-- Tokens of which the parentheses are balanced and nest no deeper than a bound, phrases counted as
groups of their own. -/
inductive Token.Nested : Nat → List Token → Prop
  | nil (depth : Nat) : Nested depth []
  | flat {depth : Nat} {token : Token} {tokens : List Token} (opening : token.kind ≠ .opening)
      (closing : token.kind ≠ .closing) (leaf : ∀ leaf ∈ token.leaf?, leaf.depth ≤ depth)
      (rest : Nested depth tokens) : Nested depth (token :: tokens)
  | group {depth : Nat} {opening closing : Token} {inner tokens : List Token}
      (left : opening.kind = .opening) (right : closing.kind = .closing)
      (inside : Nested depth inner) (rest : Nested (depth + 1) tokens) :
      Nested (depth + 1) (opening :: (inner ++ closing :: tokens))

namespace Token.Nested

theorem mono {depth bound : Nat} {tokens : List Token} (h : Nested depth tokens)
    (hle : depth ≤ bound) : Nested bound tokens := by
  induction h generalizing bound with
  | nil depth => exact .nil bound
  | flat opening closing leaf _ ih =>
    exact .flat opening closing (fun tree htree => Nat.le_trans (leaf tree htree) hle) (ih hle)
  | group left right _ _ inside rest =>
    obtain ⟨bound, rfl⟩ : ∃ outer, bound = outer + 1 := Nat.exists_eq_add_one.2 (by omega)
    exact .group left right (inside (by omega)) (rest hle)

theorem append {depth : Nat} {left right : List Token} (hleft : Nested depth left)
    (hright : Nested depth right) : Nested depth (left ++ right) := by
  induction hleft with
  | nil depth => exact hright
  | flat opening closing leaf _ ih => exact .flat opening closing leaf (ih hright)
  | group left right inside _ _ ih =>
    rw [List.cons_append, List.append_assoc, List.cons_append]
    exact .group left right inside (ih hright)

end Token.Nested

/-! ### Groups under a bound -/

/-- The trees of a group nest no deeper than a bound where they stand. -/
structure Group.Fits (bound : Nat) (group : Group) : Prop where
  disjuncts : ∀ tree ∈ group.disjuncts, tree.depth ≤ bound
  conjuncts : ∀ tree ∈ group.conjuncts, Connective.and.memberDepth tree ≤ bound

namespace Group.Fits

variable {bound : Nat} {group : Group}

theorem empty : Group.Fits bound {} :=
  ⟨nofun, nofun⟩

theorem flip (h : group.Fits bound) : group.flip.Fits bound :=
  ⟨h.disjuncts, h.conjuncts⟩

/-- Adding an operand that fits under a negation keeps the bound. -/
theorem add (h : group.Fits bound) {operand : Option Tree}
    (hoperand : ∀ tree ∈ operand, tree.negatedDepth ≤ bound) : (group.add operand).Fits bound := by
  cases operand with
  | none => exact ⟨h.disjuncts, h.conjuncts⟩
  | some tree =>
    have htree : tree.negatedDepth ≤ bound := hoperand tree rfl
    refine ⟨h.disjuncts, List.forall_mem_cons.2 ⟨?_, h.conjuncts⟩⟩
    split
    · have hnot : Connective.and.memberDepth (.not tree) = tree.negatedDepth := tree.depth_not
      rwa [hnot]
    · exact Nat.le_trans (Connective.and.memberDepth_le_negatedDepth tree) htree

/-- Completing a disjunct keeps the bound. -/
theorem endDisjunct (h : group.Fits bound) : group.endDisjunct.Fits bound := by
  unfold Group.endDisjunct
  split
  · exact ⟨h.disjuncts, h.conjuncts⟩
  · refine ⟨List.forall_mem_cons.2 ⟨?_, h.disjuncts⟩, nofun⟩
    refine Connective.and.depth_combine_le fun tree htree => ?_
    exact h.conjuncts tree (List.mem_reverse.1 htree)

/-- The tree of a group that ends nests no deeper than the bound. -/
theorem tree? (h : group.Fits bound) : ∀ tree ∈ group.tree?, tree.depth ≤ bound := by
  unfold Group.tree?
  split
  · nofun
  · rintro tree ⟨⟩
    refine Connective.or.depth_combine_le fun tree htree => ?_
    exact h.endDisjunct.disjuncts tree (List.mem_reverse.1 htree)

end Group.Fits

/-! ### Reading balanced tokens -/

/-- A leaf stands under a negation as it is. -/
theorem Token.negatedDepth_leaf? {token : Token} {leaf : Tree} (h : token.leaf? = some leaf) :
    leaf.negatedDepth = leaf.depth := by
  rcases Token.leaf?_eq_some h with ⟨word, rfl⟩ | ⟨words, rfl, -⟩
  · rfl
  · rfl

/-- Reading a token that is no parenthesis changes the group being read only, and keeps the bound if
the leaf that it stands for fits under it. -/
theorem Assembly.read_of_flat (state : Assembly) {token : Token} {bound : Nat}
    (hopening : token.kind ≠ .opening) (hclosing : token.kind ≠ .closing)
    (hleaf : ∀ leaf ∈ token.leaf?, leaf.depth ≤ bound) :
    ∃ group, state.read token = state.withGroup group ∧
      (state.group.Fits bound → group.Fits bound) := by
  have hoperand : ∀ leaf ∈ token.leaf?, leaf.negatedDepth ≤ bound := by
    intro leaf hmem
    rw [Token.negatedDepth_leaf? hmem]
    exact hleaf leaf hmem
  cases hkind : token.kind with
  | word => exact ⟨_, read_of_word state hkind, fun h => h.add hoperand⟩
  | phrase words => exact ⟨_, read_of_phrase state hkind, fun h => h.add hoperand⟩
  | and => exact ⟨_, read_of_and state hkind, fun h => h.add nofun⟩
  | or => exact ⟨_, read_of_or state hkind, fun h => h.endDisjunct⟩
  | not => exact ⟨_, read_of_not state hkind, fun h => h.flip⟩
  | opening => exact absurd hkind hopening
  | closing => exact absurd hkind hclosing

/-- Reading balanced tokens changes the group being read only, and keeps a bound under which they
nest. -/
theorem Token.Nested.foldl_read {depth : Nat} {tokens : List Token} (h : Nested depth tokens)
    (state : Assembly) (hroom : state.enclosing.length + depth ≤ maxDepth) :
    ∃ group, tokens.foldl Assembly.read state = state.withGroup group ∧
      (state.group.Fits depth → group.Fits depth) := by
  induction h generalizing state with
  | nil depth => exact ⟨state.group, rfl, id⟩
  | flat opening closing leaf _ ih =>
    obtain ⟨middle, hread, hmiddle⟩ := state.read_of_flat opening closing leaf
    obtain ⟨group, hfold, hgroup⟩ := ih (state.withGroup middle) hroom
    refine ⟨group, ?_, fun hfits => hgroup (hmiddle hfits)⟩
    rw [List.foldl_cons, hread, hfold, Assembly.withGroup_withGroup]
  | @group depth opening closing inner tokens left right _ _ inside rest =>
    -- The inner group begins empty, so that it fits under its bound whatever the outer one holds.
    have hopened : state.opened.enclosing.length + depth ≤ maxDepth := by
      rw [Assembly.opened, List.length_cons]
      omega
    obtain ⟨filled, hinner, hfilled⟩ := inside state.opened hopened
    obtain ⟨group, hfold, hgroup⟩ :=
      rest (state.withGroup (state.group.add filled.tree?)) hroom
    have hclosing : (state.opened.withGroup filled).read closing =
        state.withGroup (state.group.add filled.tree?) :=
      Assembly.read_of_closing _ right rfl
    refine ⟨group, ?_, fun hfits => hgroup (hfits.add fun tree htree => ?_)⟩
    · rw [List.foldl_cons, List.foldl_append, List.foldl_cons,
        state.read_of_opening left (by omega), hinner, hclosing, hfold,
        Assembly.withGroup_withGroup]
    · have hdepth := (hfilled .empty).tree? tree htree
      exact Nat.le_trans tree.negatedDepth_le (Nat.succ_le_succ hdepth)

/-- The tree of balanced tokens nests no deeper than the tokens, if groups can be opened
that deep. -/
theorem Tree.depth_le_of_nested {depth : Nat} {tokens : List Token} (h : Token.Nested depth tokens)
    (hdepth : depth ≤ maxDepth) : ∀ tree ∈ Tree.ofTokens? tokens, tree.depth ≤ depth := by
  have hroom : ({} : Assembly).enclosing.length + depth ≤ maxDepth := by
    rwa [List.length_nil, Nat.zero_add]
  obtain ⟨group, hfold, hgroup⟩ := h.foldl_read {} hroom
  rw [Tree.ofTokens?_of_foldl_read hfold]
  exact (hgroup .empty).tree?

end TsQuery
