import Mathlib
import TsQuery.Proofs.Assembly.Step
import TsQuery.Proofs.Tree.Width

/-!
# How long the text of a tree being assembled can become

A leaf pays for its text and for a sign between blanks, and every other token pays for three
characters (`Token.width`).  What has been paid is never less than what the state between two tokens
can still take up (`Assembly.width_read_le`), since it is kept where it will be needed.  A sign
behind a disjunct and the parenthesis that opens a group each keep three characters for the
parentheses around a disjunction, of which there are four: a disjunction has a sign, and a group a
parenthesis.  The parenthesis and the negation sign before it keep three each for the sign and for
the parentheses of a negated group.  So the text of a tree is at least two characters shorter than
what its tokens pay for (`Tree.length_render_of_mem_ofTokens?`).
-/

namespace TsQuery

/-! ### What is kept -/

/-- How many characters a token pays for. -/
def Token.width (token : Token) : Nat :=
  match token.leaf? with
  | some leaf => Connective.and.memberWidth leaf
  | none => 3

/-- How many characters a group keeps: for its trees, for the sign behind each disjunct, and for a
negation that is pending. -/
def Group.width (group : Group) : Nat :=
  (group.conjuncts.map Connective.and.memberWidth).sum +
    (group.disjuncts.map fun tree => Connective.and.memberWidth tree + 3).sum +
    if group.negated then 3 else 0

/-- How many characters a state keeps: for its groups, for the parenthesis that opened each but the
outermost one, and for the trees that are ended. -/
def Assembly.width (state : Assembly) : Nat :=
  state.group.width + (state.enclosing.map fun group => group.width + 3).sum +
    (state.ended.map Connective.and.memberWidth).sum

/-! ### Groups -/

namespace Group

theorem width_add_none_le (group : Group) : (group.add none).width ≤ group.width :=
  Nat.add_le_add_left (Nat.zero_le _) _

theorem width_flip_le (group : Group) : group.flip.width ≤ group.width + 3 := by
  obtain ⟨disjuncts, conjuncts, negated⟩ := group
  cases negated with
  | true => exact Nat.le_add_right_of_le (Nat.le_add_right _ _)
  | false => exact Nat.le_refl _

/-- An operand that takes up at most so much more when it is negated. -/
theorem width_add_some_le (group : Group) {tree : Tree} (more : Nat)
    (h : Connective.and.memberWidth (.not tree) ≤ Connective.and.memberWidth tree + more + 3) :
    (group.add (some tree)).width ≤ group.width + (Connective.and.memberWidth tree + more) := by
  simp only [width, add, List.map_cons, List.sum_cons, Bool.false_eq_true, if_false]
  split
  · omega
  · omega

/-- A leaf takes up what its token pays for, also if it is negated. -/
theorem width_add_leaf?_le (group : Group) (token : Token) :
    (group.add token.leaf?).width ≤ group.width + token.width := by
  rw [Token.width]
  cases hleaf : token.leaf? with
  | none => exact Nat.le_add_right_of_le group.width_add_none_le
  | some leaf =>
    have hcompound : leaf.isCompound = false := by
      rcases Token.leaf?_eq_some hleaf with ⟨word, rfl⟩ | ⟨words, rfl, -⟩
      · rfl
      · rfl
    refine group.width_add_some_le 0 ?_
    exact (Connective.memberWidth_not_of_isCompound_eq_false hcompound).trans
      (Nat.add_le_add_left (by decide) _)

/-- Joining the conjuncts of a group takes up no more room than they do. -/
theorem memberWidth_conjunction_le {group : Group} (h : ¬group.conjuncts.isEmpty = true) :
    Connective.and.memberWidth (.conjunction group.conjuncts.reverse) ≤
      (group.conjuncts.map Connective.and.memberWidth).sum := by
  have hne : group.conjuncts.reverse ≠ [] :=
    fun hnil => h (List.isEmpty_iff.2 (List.reverse_eq_nil_iff.1 hnil))
  have hcombine := Connective.and.memberWidth_combine_le hne
  rwa [List.map_reverse, List.sum_reverse] at hcombine

/-- The sign behind a disjunct pays for what is kept there. -/
theorem width_endDisjunct_le (group : Group) : group.endDisjunct.width ≤ group.width + 3 := by
  unfold endDisjunct
  split
  · exact Nat.le_add_right_of_le (Nat.add_le_add_left (Nat.zero_le _) _)
  · next hne =>
    have hconjunction := memberWidth_conjunction_le hne
    simp only [width, List.map_cons, List.sum_cons, List.map_nil, List.sum_nil, Bool.false_eq_true,
      if_false]
    omega

/-- What is kept behind the disjuncts of a group that ends is enough for all of them but the
last one. -/
theorem le_width_of_disjuncts_endDisjunct {group : Group} {tree : Tree} {trees : List Tree}
    (h : group.endDisjunct.disjuncts = tree :: trees) :
    Connective.and.memberWidth tree +
      (trees.map fun tree => Connective.and.memberWidth tree + 3).sum ≤ group.width := by
  unfold endDisjunct at h
  split at h
  · simp only [width]
    rw [show group.disjuncts = tree :: trees from h, List.map_cons, List.sum_cons]
    omega
  · next hne =>
    cases h
    have hconjunction := memberWidth_conjunction_le hne
    simp only [width]
    omega

/-- The tree of a group takes up at most one character more than the group keeps: what is kept
behind one disjunct is all but one of the characters that the parentheses of a disjunction need. -/
theorem memberWidth_le_of_mem_tree? (group : Group) :
    ∀ tree ∈ group.tree?, Connective.and.memberWidth tree ≤ group.width + 1 := by
  unfold tree?
  split
  · nofun
  · next hne =>
    rintro _ ⟨⟩
    obtain ⟨tree, trees, heq⟩ := List.exists_cons_of_ne_nil hne
    have hwidth := le_width_of_disjuncts_endDisjunct heq
    have hdisjunction := Connective.memberWidth_disjunction_le tree trees
    rw [heq]
    omega

/-- A group that ends in the group around it has kept what its tree takes up there, with the
parenthesis that opened it. -/
theorem width_add_tree?_le (outer group : Group) :
    (outer.add group.tree?).width ≤ group.width + (outer.width + 3) := by
  cases htree : group.tree? with
  | none =>
    have hadd := outer.width_add_none_le
    omega
  | some tree =>
    have hgroup := group.memberWidth_le_of_mem_tree? tree htree
    have hadd := outer.width_add_some_le 2 (Connective.memberWidth_not_le tree)
    omega

end Group

/-! ### Steps and runs -/

namespace Assembly

/-- A state keeps no more than it did and what the next token pays for. -/
theorem width_read_le (state : Assembly) (token : Token) :
    (state.read token).width ≤ state.width + token.width := by
  have hsign (h : token.leaf? = none) : token.width = 3 := by rw [Token.width, h]
  refine state.read_cases token ?operand ?forget ?or ?not ?opening ?closing ?stray
  case operand =>
    intro _
    have hadd := state.group.width_add_leaf?_le token
    simp only [width, withGroup]
    omega
  case forget =>
    intro _
    have hadd := state.group.width_add_none_le
    simp only [width, withGroup]
    omega
  case or =>
    intro hleaf
    have hend := state.group.width_endDisjunct_le
    rw [hsign hleaf]
    simp only [width, withGroup]
    omega
  case not =>
    intro hleaf
    have hflip := state.group.width_flip_le
    rw [hsign hleaf]
    simp only [width, withGroup]
    omega
  case opening =>
    intro hleaf _
    have hempty : ({} : Group).width = 0 := rfl
    rw [hsign hleaf]
    simp only [width, opened, hempty, List.map_cons, List.sum_cons]
    omega
  case closing =>
    intro _ outer rest henclosing
    have hadd := outer.width_add_tree?_le state.group
    simp only [width, closed, henclosing, List.map_cons, List.sum_cons]
    omega
  case stray =>
    intro hleaf henclosing
    have hempty : ({} : Group).width = 0 := rfl
    rw [hsign hleaf]
    simp only [width, strayed, hempty, henclosing, List.map_append, List.sum_append]
    cases htree : state.group.tree? with
    | none =>
      simp only [Option.toList_none, List.map_nil, List.sum_nil]
      omega
    | some tree =>
      have hgroup := state.group.memberWidth_le_of_mem_tree? tree htree
      simp only [Option.toList_some, List.map_singleton, List.map_nil, List.sum_nil,
        List.sum_singleton]
      omega

/-- A state keeps no more than the tokens that were read have paid for. -/
theorem width_foldl_read_le (state : Assembly) (tokens : List Token) :
    (tokens.foldl read state).width ≤ state.width + (tokens.map Token.width).sum := by
  induction tokens generalizing state with
  | nil => exact Nat.le_refl _
  | cons token tokens ih =>
    have hread := state.width_read_le token
    have hrest := ih (state.read token)
    rw [List.foldl_cons, List.map_cons, List.sum_cons]
    omega

/-- Ending the open groups one by one takes what the state keeps for them. -/
theorem width_outermost_le (state : Assembly) :
    state.outermost.width ≤
      state.group.width + (state.enclosing.map fun group => group.width + 3).sum := by
  obtain ⟨ended, group, enclosing, strays⟩ := state
  change (enclosing.foldl _ group).width ≤ group.width + (enclosing.map _).sum
  induction enclosing generalizing group with
  | nil => exact Nat.le_refl _
  | cons outer rest ih =>
    have hadd := outer.width_add_tree?_le group
    have hrest := ih (outer.add group.tree?)
    rw [List.foldl_cons, List.map_cons, List.sum_cons]
    omega

/-- The text of the tree of all that was read is at least two characters shorter than what the state
keeps. -/
theorem length_render_of_mem_tree? (state : Assembly) :
    ∀ tree ∈ state.tree?, tree.render.length + 2 ≤ state.width := by
  unfold tree?
  split
  · nofun
  · next hne =>
    rintro _ ⟨⟩
    have hcombine := Connective.and.memberWidth_combine_le (mt List.reverse_eq_nil_iff.1 hne)
    rw [List.map_reverse, List.sum_reverse, List.map_append, List.sum_append] at hcombine
    have hrender := Connective.and.length_render_le_memberWidth
      (.conjunction (state.outermost.tree?.toList ++ state.ended).reverse)
    have houtermost := state.width_outermost_le
    simp only [Connective.combine] at hcombine
    simp only [width]
    cases htree : state.outermost.tree? with
    | none =>
      simp only [htree, Option.toList_none, List.map_nil, List.sum_nil] at hcombine hrender ⊢
      omega
    | some tree =>
      have hgroup := state.outermost.memberWidth_le_of_mem_tree? tree htree
      simp only [htree, Option.toList_some, List.map_singleton, List.sum_singleton]
        at hcombine hrender ⊢
      omega

end Assembly

/-- The text of a tree is at least two characters shorter than what its tokens pay for. -/
theorem Tree.length_render_of_mem_ofTokens? (tokens : List Token) :
    ∀ tree ∈ ofTokens? tokens, tree.render.length + 2 ≤ (tokens.map Token.width).sum := by
  intro tree htree
  have hrender := (Assembly.ofTokens tokens).length_render_of_mem_tree? tree htree
  have hwidth := Assembly.width_foldl_read_le {} tokens
  have hempty : ({} : Assembly).width = 0 := rfl
  rw [hempty, Nat.zero_add] at hwidth
  exact hrender.trans hwidth

end TsQuery
