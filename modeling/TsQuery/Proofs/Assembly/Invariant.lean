import TsQuery.Proofs.Assembly.Step
import TsQuery.Proofs.Tree.Canonical

/-!
# What holds of every tree being assembled

The state between two tokens holds trees in three places: the disjunctions that stray closing
parentheses have ended, the group being read and the groups around it.  A property of trees that
negations and combinations of trees inherit (`Tree.IsInherited`) passes from the leaves that the
tokens stand for to every tree in every state (`Assembly.Forall.read`, `Assembly.Forall.ofTokens`),
and so to the tree of the whole sequence (`Tree.forall_ofTokens?`).  Being canonical is such a
property.
-/

namespace TsQuery

/-! ### Properties that pass from leaves to trees -/

/-- A property that negations and combinations inherit from their operands. -/
structure Tree.IsInherited (P : Tree → Prop) : Prop where
  /-- A negation inherits the property. -/
  not : ∀ tree, P tree → P (.not tree)
  /-- A combination of at least one tree inherits the property. -/
  combine : ∀ (c : Connective) (trees : List Tree), trees ≠ [] → (∀ tree ∈ trees, P tree) →
    P (c.combine trees)

/-- All trees in a group have a property. -/
structure Group.Forall (P : Tree → Prop) (group : Group) : Prop where
  disjuncts : ∀ tree ∈ group.disjuncts, P tree
  conjuncts : ∀ tree ∈ group.conjuncts, P tree

/-- All trees in a state have a property. -/
structure Assembly.Forall (P : Tree → Prop) (state : Assembly) : Prop where
  ended : ∀ tree ∈ state.ended, P tree
  group : state.group.Forall P
  enclosing : ∀ group ∈ state.enclosing, group.Forall P

section

variable {P : Tree → Prop}

namespace Group.Forall

/-- The empty group holds no tree. -/
theorem empty : Group.Forall P {} :=
  ⟨nofun, nofun⟩

/-- Forgetting a pending negation changes no tree. -/
theorem add_none {group : Group} (h : group.Forall P) : (group.add none).Forall P :=
  ⟨h.disjuncts, h.conjuncts⟩

/-- Reading a negation sign changes no tree. -/
theorem flip {group : Group} (h : group.Forall P) : group.flip.Forall P :=
  ⟨h.disjuncts, h.conjuncts⟩

/-- Adding an operand, negated or not, keeps the property. -/
theorem add (hP : Tree.IsInherited P) {group : Group} (h : group.Forall P) {operand : Option Tree}
    (hoperand : ∀ tree ∈ operand, P tree) : (group.add operand).Forall P := by
  cases operand with
  | none => exact h.add_none
  | some tree =>
    have htree : P tree := hoperand tree rfl
    refine ⟨h.disjuncts, List.forall_mem_cons.2 ⟨?_, h.conjuncts⟩⟩
    split
    · exact hP.not tree htree
    · exact htree

/-- Completing a disjunct keeps the property. -/
theorem endDisjunct (hP : Tree.IsInherited P) {group : Group} (h : group.Forall P) :
    group.endDisjunct.Forall P := by
  unfold Group.endDisjunct
  split
  · exact ⟨h.disjuncts, h.conjuncts⟩
  · next hne =>
    refine ⟨List.forall_mem_cons.2 ⟨?_, h.disjuncts⟩, nofun⟩
    refine hP.combine .and group.conjuncts.reverse ?_ fun tree htree => ?_
    · exact fun hnil => hne (List.isEmpty_iff.2 (List.reverse_eq_nil_iff.1 hnil))
    · exact h.conjuncts tree (List.mem_reverse.1 htree)

/-- The tree of a group that ends has the property. -/
theorem tree? (hP : Tree.IsInherited P) {group : Group} (h : group.Forall P) :
    ∀ tree ∈ group.tree?, P tree := by
  have hend := h.endDisjunct hP
  unfold Group.tree?
  split
  · nofun
  · next hne =>
    rintro tree ⟨⟩
    refine hP.combine .or _ (fun hnil => hne (List.reverse_eq_nil_iff.1 hnil)) fun tree htree => ?_
    exact hend.disjuncts tree (List.mem_reverse.1 htree)

end Group.Forall

namespace Assembly

namespace Forall

/-- Reading a token keeps the property, if the leaf it stands for has it. -/
theorem read (hP : Tree.IsInherited P) {state : Assembly} (h : state.Forall P) {token : Token}
    (hleaf : ∀ leaf ∈ token.leaf?, P leaf) : (state.read token).Forall P := by
  refine state.read_cases token ?operand ?forget ?or ?not ?opening ?closing ?stray
  case operand => exact fun _ => ⟨h.ended, h.group.add hP hleaf, h.enclosing⟩
  case forget => exact fun _ => ⟨h.ended, h.group.add_none, h.enclosing⟩
  case or => exact fun _ => ⟨h.ended, h.group.endDisjunct hP, h.enclosing⟩
  case not => exact fun _ => ⟨h.ended, h.group.flip, h.enclosing⟩
  case opening =>
    exact fun _ _ => ⟨h.ended, .empty, List.forall_mem_cons.2 ⟨h.group, h.enclosing⟩⟩
  case closing =>
    intro _ outer rest henclosing
    have houter := List.forall_mem_cons.1 (henclosing ▸ h.enclosing)
    exact ⟨h.ended, houter.1.add hP (h.group.tree? hP), houter.2⟩
  case stray =>
    intro _ _
    refine ⟨fun tree htree => ?_, .empty, h.enclosing⟩
    rcases List.mem_append.1 htree with hmem | hmem
    · exact h.group.tree? hP tree (Option.mem_toList.1 hmem)
    · exact h.ended tree hmem

/-- Reading a sequence of tokens keeps the property. -/
theorem foldl_read (hP : Tree.IsInherited P) {tokens : List Token} {state : Assembly}
    (h : state.Forall P) (hleaf : ∀ token ∈ tokens, ∀ leaf ∈ token.leaf?, P leaf) :
    (tokens.foldl Assembly.read state).Forall P := by
  induction tokens generalizing state with
  | nil => exact h
  | cons token tokens ih =>
    obtain ⟨htoken, htokens⟩ := List.forall_mem_cons.1 hleaf
    exact ih (h.read hP htoken) htokens

/-- After any sequence of tokens, all trees have the property. -/
theorem ofTokens (hP : Tree.IsInherited P) {tokens : List Token}
    (hleaf : ∀ token ∈ tokens, ∀ leaf ∈ token.leaf?, P leaf) :
    (Assembly.ofTokens tokens).Forall P := by
  have hempty : Assembly.Forall P {} := ⟨nofun, .empty, nofun⟩
  exact hempty.foldl_read hP hleaf

/-- Ending the open groups one by one keeps the property. -/
theorem outermost (hP : Tree.IsInherited P) {state : Assembly} (h : state.Forall P) :
    state.outermost.Forall P := by
  obtain ⟨ended, group, enclosing, strays⟩ := state
  obtain ⟨-, hgroup, henclosing⟩ := h
  change (enclosing.foldl _ group).Forall P
  induction enclosing generalizing group with
  | nil => exact hgroup
  | cons outer rest ih =>
    obtain ⟨houter, hrest⟩ := List.forall_mem_cons.1 henclosing
    exact ih (outer.add group.tree?) (houter.add hP (hgroup.tree? hP)) hrest

/-- The trees that the end of the input joins have the property. -/
theorem joined (hP : Tree.IsInherited P) {state : Assembly} (h : state.Forall P) :
    ∀ tree ∈ state.outermost.tree?.toList ++ state.ended, P tree := by
  intro tree htree
  rcases List.mem_append.1 htree with hmem | hmem
  · exact (h.outermost hP).tree? hP tree (Option.mem_toList.1 hmem)
  · exact h.ended tree hmem

/-- The tree of all that was read has the property. -/
theorem tree? (hP : Tree.IsInherited P) {state : Assembly} (h : state.Forall P) :
    ∀ tree ∈ state.tree?, P tree := by
  unfold Assembly.tree?
  split
  · nofun
  · next hne =>
    rintro tree ⟨⟩
    refine hP.combine .and _ (fun hnil => hne (List.reverse_eq_nil_iff.1 hnil)) fun tree htree => ?_
    exact h.joined hP tree (List.mem_reverse.1 htree)

end Forall

end Assembly

/-- An inherited property of the leaves that tokens stand for is one of their tree. -/
theorem Tree.forall_ofTokens? (hP : Tree.IsInherited P) {tokens : List Token}
    (hleaf : ∀ token ∈ tokens, ∀ leaf ∈ token.leaf?, P leaf) :
    ∀ tree ∈ Tree.ofTokens? tokens, P tree :=
  (Assembly.Forall.ofTokens hP hleaf).tree? hP

end

/-! ### Canonical form -/

theorem Tree.isInherited_isCanonical : Tree.IsInherited Tree.IsCanonical where
  not _ h := .not h
  combine c _ hne h := c.isCanonical_combine hne h

/-- A leaf is canonical, since it has no operands. -/
theorem Token.isCanonical_of_mem_leaf? {token : Token} :
    ∀ leaf ∈ token.leaf?, leaf.IsCanonical := by
  intro leaf hleaf
  rcases Token.leaf?_eq_some hleaf with ⟨word, rfl⟩ | ⟨words, rfl, -⟩
  · exact .term word
  · exact .phrase words

/-- The tree of any sequence of tokens is canonical. -/
theorem Tree.isCanonical_of_mem_ofTokens? {tokens : List Token} :
    ∀ tree ∈ Tree.ofTokens? tokens, tree.IsCanonical :=
  Tree.forall_ofTokens? Tree.isInherited_isCanonical fun _ _ => Token.isCanonical_of_mem_leaf?

/-- The tree of tokens that leave no group open and no parenthesis without a group is the tree of
the outermost group. -/
theorem Tree.ofTokens?_of_foldl_read {tokens : List Token} {group : Group}
    (h : tokens.foldl Assembly.read {} = ({} : Assembly).withGroup group) :
    Tree.ofTokens? tokens = group.tree? := by
  have hstate : (({} : Assembly).withGroup group).Forall IsCanonical := by
    rw [← h]
    exact .ofTokens Tree.isInherited_isCanonical fun _ _ => Token.isCanonical_of_mem_leaf?
  have hgroup := hstate.group.tree? Tree.isInherited_isCanonical
  have houtermost : (({} : Assembly).withGroup group).outermost = group := rfl
  rw [Tree.ofTokens?, Assembly.ofTokens, h, Assembly.tree?, houtermost]
  cases htree : group.tree? with
  | none => rfl
  | some tree => exact congrArg some (Connective.combine_singleton .and (hgroup tree htree))

end TsQuery
