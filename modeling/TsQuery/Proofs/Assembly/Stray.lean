import TsQuery.Proofs.Assembly.Tolerance

/-!
# Closing parentheses without a group

A stray closing parenthesis cuts a query in two.  Both parts are read as queries of their own, and
their trees are joined by a conjunction.  That is to skip the parenthesis wherever the parts would
have been joined by a conjunction anyway.  They would not with a disjunction sign outside of all
groups, which binds looser than the cut, or with a negation sign right before the cut, which finds
no operand behind it.

Skipping is justified by comparing two runs, one with the parenthesis and one without it.  Their
states differ only in how the conjuncts outside of all groups are bundled (`Assembly.Alike`), which
no token can tell unless it is a disjunction sign there (`Assembly.Alike.read`).
-/

namespace TsQuery

/-! ### Cutting a query in two -/

namespace Tree

/-- The conjunction of trees, if there are any. -/
def conjoined? : List Tree → Option Tree
  | [] => none
  | trees => some (conjunction trees)

/-- The conjunction of two queries, either of which may be empty. -/
def both? (left right : Option Tree) : Option Tree :=
  left.merge (fun left right => conjunction [left, right]) right

theorem conjoined?_of_ne_nil {trees : List Tree} (h : trees ≠ []) :
    conjoined? trees = some (conjunction trees) := by
  cases trees with
  | nil => exact absurd rfl h
  | cons tree trees => rfl

/-- The conjunction of canonical trees is that of the conjunctions of two parts of them. -/
theorem conjoined?_append {left right : List Tree} (hleft : ∀ tree ∈ left, tree.IsCanonical)
    (hright : ∀ tree ∈ right, tree.IsCanonical) :
    conjoined? (left ++ right) = both? (conjoined? left) (conjoined? right) := by
  cases left with
  | nil => cases right <;> rfl
  | cons first left =>
    cases right with
    | nil =>
      rw [List.append_nil]
      rfl
    | cons second right => exact congrArg some (Connective.combine_append .and hleft hright)

/-- Canonical trees that join the same conjuncts have the same conjunction. -/
theorem conjoined?_congr {left right : List Tree} (hleft : ∀ tree ∈ left, tree.IsCanonical)
    (hright : ∀ tree ∈ right, tree.IsCanonical)
    (h : left.flatMap conjuncts = right.flatMap conjuncts) :
    conjoined? left = conjoined? right := by
  have hne {trees : List Tree} (hcanonical : ∀ tree ∈ trees, tree.IsCanonical) :
      trees.flatMap conjuncts = [] ↔ trees = [] := by
    constructor
    · intro hnil
      refine List.eq_nil_iff_forall_not_mem.2 fun tree htree => ?_
      exact (Connective.and.isCanonical_operands (hcanonical tree htree)).1
        (List.flatMap_eq_nil_iff.1 hnil tree htree)
    · rintro rfl
      rfl
  by_cases hnil : left = []
  · have hright_nil : right = [] := by
      rw [← hne hright, ← h]
      exact (hne hleft).2 hnil
    rw [hnil, hright_nil]
  · have hright_ne : right ≠ [] := by
      rw [ne_eq, ← hne hright, ← h]
      exact mt (hne hleft).1 hnil
    rw [conjoined?_of_ne_nil hnil, conjoined?_of_ne_nil hright_ne]
    exact congrArg some (Connective.combine_congr .and h)

/-- What is joined to the conjunction of canonical trees is joined to each of them. -/
theorem flatMap_conjuncts_conjoined? {trees : List Tree} (h : ∀ tree ∈ trees, tree.IsCanonical) :
    (conjoined? trees).toList.flatMap conjuncts = trees.flatMap conjuncts := by
  cases trees with
  | nil => rfl
  | cons first trees =>
    rw [conjoined?_of_ne_nil (List.cons_ne_nil _ _), Option.toList_some, List.flatMap_singleton]
    exact Connective.operands_combine .and h

end Tree

namespace Assembly

/-- The trees that the end of the input joins, in their order. -/
def parts (state : Assembly) : List Tree :=
  (state.outermost.tree?.toList ++ state.ended).reverse

theorem tree?_eq_conjoined? (state : Assembly) : state.tree? = Tree.conjoined? state.parts := by
  unfold tree?
  split
  · next hnil =>
    rw [parts, hnil]
    rfl
  · next hne => exact (Tree.conjoined?_of_ne_nil (mt List.reverse_eq_nil_iff.1 hne)).symm

/-- A state behind trees that stray parentheses have ended before. -/
def behind (earlier state : Assembly) : Assembly :=
  { state with ended := state.ended ++ earlier.ended, strays := state.strays ++ earlier.strays }

/-- Reading a token does not look at what has been ended before. -/
theorem read_behind (earlier state : Assembly) (token : Token) :
    (behind earlier state).read token = behind earlier (state.read token) := by
  obtain ⟨kind, text, position⟩ := token
  obtain ⟨ended, group, enclosing, strays⟩ := state
  cases kind with
  | opening =>
    rcases Nat.lt_or_ge enclosing.length maxDepth with hroom | hfull
    · rw [read_of_opening ⟨ended, group, enclosing, strays⟩ rfl hroom]
      exact read_of_opening (behind earlier ⟨ended, group, enclosing, strays⟩) rfl hroom
    · rw [read_of_opening_of_full ⟨ended, group, enclosing, strays⟩ rfl hfull]
      exact read_of_opening_of_full (behind earlier ⟨ended, group, enclosing, strays⟩) rfl hfull
  | closing =>
    cases enclosing with
    | nil =>
      rw [read_of_stray ⟨ended, group, [], strays⟩ rfl rfl,
        read_of_stray (behind earlier ⟨ended, group, [], strays⟩) rfl rfl]
      simp only [strayed, behind, List.append_assoc, List.cons_append]
    | cons outer rest => rfl
  | _ => rfl

theorem foldl_read_behind (earlier : Assembly) (tokens : List Token) (state : Assembly) :
    tokens.foldl read (behind earlier state) = behind earlier (tokens.foldl read state) := by
  induction tokens generalizing state with
  | nil => rfl
  | cons token tokens ih => rw [List.foldl_cons, List.foldl_cons, read_behind, ih]

/-- After a stray parenthesis, reading begins anew behind what it has ended. -/
theorem strayed_eq_behind {state : Assembly} (h : state.enclosing = []) (token : Token) :
    state.strayed token = behind (state.strayed token) {} := by
  simp only [strayed, behind, h, List.nil_append]

end Assembly

namespace Assembly.Forall

variable {state : Assembly}

theorem isCanonical_read (h : state.Forall Tree.IsCanonical) (token : Token) :
    (state.read token).Forall Tree.IsCanonical :=
  h.read Tree.isInherited_isCanonical Token.isCanonical_of_mem_leaf?

theorem isCanonical_foldl_read (h : state.Forall Tree.IsCanonical) (tokens : List Token) :
    (tokens.foldl Assembly.read state).Forall Tree.IsCanonical :=
  h.foldl_read Tree.isInherited_isCanonical fun _ _ => Token.isCanonical_of_mem_leaf?

theorem isCanonical_parts (h : state.Forall Tree.IsCanonical) :
    ∀ tree ∈ state.parts, tree.IsCanonical :=
  fun tree htree => h.joined Tree.isInherited_isCanonical tree (List.mem_reverse.1 htree)

end Assembly.Forall

namespace Tree

theorem isCanonical_ofTokens (tokens : List Token) :
    (Assembly.ofTokens tokens).Forall IsCanonical :=
  .ofTokens isInherited_isCanonical fun _ _ => Token.isCanonical_of_mem_leaf?

/-- A stray closing parenthesis cuts a query into two that are read by themselves. -/
theorem ofTokens?_cut {front back : List Token} {stray : Token} (hkind : stray.kind = .closing)
    (hfront : (Assembly.ofTokens front).enclosing = []) :
    ofTokens? (front ++ stray :: back) = both? (ofTokens? front) (ofTokens? back) := by
  have houtermost : (Assembly.ofTokens front).outermost = (Assembly.ofTokens front).group := by
    rw [Assembly.outermost, hfront, List.foldl_nil]
  have hrun : Assembly.ofTokens (front ++ stray :: back) =
      Assembly.behind ((Assembly.ofTokens front).strayed stray) (Assembly.ofTokens back) := by
    rw [Assembly.ofTokens_append, List.foldl_cons, Assembly.read_of_stray _ hkind hfront,
      Assembly.strayed_eq_behind hfront, Assembly.foldl_read_behind,
      ← Assembly.strayed_eq_behind hfront]
    rfl
  have hparts : (Assembly.ofTokens (front ++ stray :: back)).parts =
      (Assembly.ofTokens front).parts ++ (Assembly.ofTokens back).parts := by
    rw [hrun, Assembly.parts, Assembly.parts, Assembly.parts, houtermost, ← List.reverse_append,
      List.append_assoc]
    rfl
  rw [ofTokens?, ofTokens?, ofTokens?, Assembly.tree?_eq_conjoined?, hparts,
    Assembly.tree?_eq_conjoined?, Assembly.tree?_eq_conjoined?,
    conjoined?_append (isCanonical_ofTokens front).isCanonical_parts
      (isCanonical_ofTokens back).isCanonical_parts]

end Tree

/-! ### Two runs that bundle their conjuncts differently -/

/-- A group without a complete disjunct ends as the conjunction of its conjuncts. -/
theorem Group.tree?_of_disjuncts_eq_nil {group : Group} (hdisjuncts : group.disjuncts = [])
    (h : group.Forall Tree.IsCanonical) :
    group.tree? = Tree.conjoined? group.conjuncts.reverse := by
  cases hempty : group.conjuncts.isEmpty with
  | true =>
    have hconjuncts : group.conjuncts = [] := List.isEmpty_iff.1 hempty
    rw [tree?, endDisjunct, if_pos hempty, hdisjuncts, hconjuncts]
    rfl
  | false =>
    have hne : group.conjuncts.reverse ≠ [] := by
      rw [ne_eq, List.reverse_eq_nil_iff]
      exact List.isEmpty_eq_false_iff.1 hempty
    have hcanonical : (Tree.conjunction group.conjuncts.reverse).IsCanonical :=
      Connective.and.isCanonical_combine hne fun tree htree =>
        h.conjuncts tree (List.mem_reverse.1 htree)
    rw [tree?, endDisjunct, hempty, hdisjuncts, Tree.conjoined?_of_ne_nil hne]
    exact congrArg some (Connective.or.combine_singleton hcanonical)

namespace Assembly

/-- Two outermost groups, each behind the trees that have been ended before it, join the same
conjuncts, as neither of them has a disjunct that keeps some of them apart. -/
structure SameGround (ended : List Tree) (group : Group) (ended' : List Tree) (group' : Group) :
    Prop where
  disjuncts : group.disjuncts = []
  disjuncts' : group'.disjuncts = []
  negated : group.negated = group'.negated
  conjuncts : (group.conjuncts ++ ended).reverse.flatMap Tree.conjuncts =
    (group'.conjuncts ++ ended').reverse.flatMap Tree.conjuncts

namespace SameGround

variable {ended ended' : List Tree} {group group' : Group}

theorem flip (h : SameGround ended group ended' group') :
    SameGround ended group.flip ended' group'.flip :=
  ⟨h.disjuncts, h.disjuncts', congrArg (!·) h.negated, h.conjuncts⟩

theorem add (h : SameGround ended group ended' group') (operand : Option Tree) :
    SameGround ended (group.add operand) ended' (group'.add operand) := by
  cases operand with
  | none => exact ⟨h.disjuncts, h.disjuncts', rfl, h.conjuncts⟩
  | some tree =>
    refine ⟨h.disjuncts, h.disjuncts', rfl, ?_⟩
    simp only [Group.add, List.cons_append, List.reverse_cons, List.flatMap_append, h.conjuncts,
      h.negated]

/-- Ending a group without disjuncts hands its conjuncts to what has been ended. -/
theorem flatMap_conjuncts_ended (hdisjuncts : group.disjuncts = [])
    (h : group.Forall Tree.IsCanonical) :
    (group.tree?.toList ++ ended).reverse.flatMap Tree.conjuncts =
      (group.conjuncts ++ ended).reverse.flatMap Tree.conjuncts := by
  have hcanonical : ∀ tree ∈ group.conjuncts.reverse, tree.IsCanonical :=
    fun tree htree => h.conjuncts tree (List.mem_reverse.1 htree)
  have hreverse : group.tree?.toList.reverse = group.tree?.toList := by
    cases group.tree? <;> rfl
  rw [List.reverse_append, List.reverse_append, List.flatMap_append, List.flatMap_append, hreverse,
    Group.tree?_of_disjuncts_eq_nil hdisjuncts h, Tree.flatMap_conjuncts_conjoined? hcanonical]

theorem stray (h : SameGround ended group ended' group') (hgroup : group.Forall Tree.IsCanonical)
    (hgroup' : group'.Forall Tree.IsCanonical) :
    SameGround (group.tree?.toList ++ ended) {} (group'.tree?.toList ++ ended') {} where
  disjuncts := rfl
  disjuncts' := rfl
  negated := rfl
  conjuncts := by
    rw [List.nil_append, List.nil_append, flatMap_conjuncts_ended h.disjuncts hgroup,
      flatMap_conjuncts_ended h.disjuncts' hgroup', h.conjuncts]

end SameGround

/-- A token that is no parenthesis changes the group being read only, whatever is around it. -/
theorem exists_change_of_flat {token : Token} (hopening : token.kind ≠ .opening)
    (hclosing : token.kind ≠ .closing) :
    ∃ change : Group → Group, ∀ state : Assembly,
      state.read token = state.withGroup (change state.group) := by
  cases hkind : token.kind with
  | word => exact ⟨fun group => group.add token.leaf?, fun state => read_of_word state hkind⟩
  | phrase words =>
    exact ⟨fun group => group.add token.leaf?, fun state => read_of_phrase state hkind⟩
  | and => exact ⟨fun group => group.add none, fun state => read_of_and state hkind⟩
  | or => exact ⟨Group.endDisjunct, fun state => read_of_or state hkind⟩
  | not => exact ⟨Group.flip, fun state => read_of_not state hkind⟩
  | opening => exact absurd hkind hopening
  | closing => exact absurd hkind hclosing

/-- Two states that differ only in how the conjuncts outside of all groups are bundled. -/
inductive Alike (state state' : Assembly) : Prop
  | outside (enclosing : state.enclosing = []) (enclosing' : state'.enclosing = [])
      (ground : SameGround state.ended state.group state'.ended state'.group)
  | inside {between : List Group} {outermost outermost' : Group}
      (group : state.group = state'.group) (enclosing : state.enclosing = between ++ [outermost])
      (enclosing' : state'.enclosing = between ++ [outermost'])
      (ground : SameGround state.ended outermost state'.ended outermost')

namespace Alike

variable {state state' : Assembly}

/-- Reading a token outside of all groups keeps states alike, unless it is a disjunction sign. -/
theorem read_outside (enclosing : state.enclosing = []) (enclosing' : state'.enclosing = [])
    (ground : SameGround state.ended state.group state'.ended state'.group)
    (hcanonical : state.Forall Tree.IsCanonical) (hcanonical' : state'.Forall Tree.IsCanonical)
    {token : Token} (hor : token.kind ≠ .or) : (state.read token).Alike (state'.read token) := by
  cases hkind : token.kind with
  | word =>
    rw [read_of_word state hkind, read_of_word state' hkind]
    exact .outside enclosing enclosing' (ground.add _)
  | phrase words =>
    rw [read_of_phrase state hkind, read_of_phrase state' hkind]
    exact .outside enclosing enclosing' (ground.add _)
  | and =>
    rw [read_of_and state hkind, read_of_and state' hkind]
    exact .outside enclosing enclosing' (ground.add none)
  | or => exact absurd hkind hor
  | not =>
    rw [read_of_not state hkind, read_of_not state' hkind]
    exact .outside enclosing enclosing' ground.flip
  | opening =>
    have hroom : state.enclosing.length < maxDepth := by
      rw [enclosing]
      decide
    have hroom' : state'.enclosing.length < maxDepth := by
      rw [enclosing']
      decide
    rw [read_of_opening state hkind hroom, read_of_opening state' hkind hroom']
    refine @inside _ _ [] state.group state'.group rfl ?_ ?_ ground
    · rw [opened, enclosing, List.nil_append]
    · rw [opened, enclosing', List.nil_append]
  | closing =>
    rw [read_of_stray state hkind enclosing, read_of_stray state' hkind enclosing']
    exact .outside enclosing enclosing' (ground.stray hcanonical.group hcanonical'.group)

/-- Reading a token inside a group keeps states alike. -/
theorem read_inside {between : List Group} {outermost outermost' : Group}
    (group : state.group = state'.group) (enclosing : state.enclosing = between ++ [outermost])
    (enclosing' : state'.enclosing = between ++ [outermost'])
    (ground : SameGround state.ended outermost state'.ended outermost') (token : Token) :
    (state.read token).Alike (state'.read token) := by
  by_cases hopening : token.kind = .opening
  · have hlength : state'.enclosing.length = state.enclosing.length := by
      rw [enclosing, enclosing', List.length_append, List.length_append, List.length_singleton,
        List.length_singleton]
    rcases Nat.lt_or_ge state.enclosing.length maxDepth with hroom | hfull
    · rw [read_of_opening state hopening hroom,
        read_of_opening state' hopening (hlength ▸ hroom)]
      refine @inside _ _ (state.group :: between) outermost outermost' rfl ?_ ?_ ground
      · rw [opened, enclosing, List.cons_append]
      · rw [opened, enclosing', group, List.cons_append]
    · rw [read_of_opening_of_full state hopening hfull,
        read_of_opening_of_full state' hopening (hlength ▸ hfull), group]
      exact .inside rfl enclosing enclosing' ground
  by_cases hclosing : token.kind = .closing
  · cases between with
    | nil =>
      rw [read_of_closing state hclosing enclosing, read_of_closing state' hclosing enclosing']
      refine .outside rfl rfl ?_
      rw [closed, closed, group]
      exact ground.add _
    | cons outer between =>
      rw [read_of_closing state hclosing enclosing, read_of_closing state' hclosing enclosing']
      refine .inside ?_ rfl rfl ground
      rw [closed, closed, group]
  obtain ⟨change, hchange⟩ := exists_change_of_flat hopening hclosing
  rw [hchange, hchange, group]
  exact .inside rfl enclosing enclosing' ground

/-- Reading a token keeps states alike, unless it is a disjunction sign outside of all groups. -/
theorem read (h : state.Alike state') (hcanonical : state.Forall Tree.IsCanonical)
    (hcanonical' : state'.Forall Tree.IsCanonical) {token : Token}
    (hor : token.kind = .or → state.enclosing ≠ []) :
    (state.read token).Alike (state'.read token) := by
  cases h with
  | outside enclosing enclosing' ground =>
    exact read_outside enclosing enclosing' ground hcanonical hcanonical' fun hkind =>
      hor hkind enclosing
  | inside group enclosing enclosing' ground =>
    exact read_inside group enclosing enclosing' ground token

/-- Alike states end as the same tree. -/
theorem tree?_eq (h : state.Alike state') (hcanonical : state.Forall Tree.IsCanonical)
    (hcanonical' : state'.Forall Tree.IsCanonical) : state.tree? = state'.tree? := by
  induction hlength : state.enclosing.length generalizing state state' with
  | zero =>
    have hnil : state.enclosing = [] := List.length_eq_zero_iff.1 hlength
    cases h with
    | outside enclosing enclosing' ground =>
      have houtermost : state.outermost = state.group := by
        rw [outermost, enclosing, List.foldl_nil]
      have houtermost' : state'.outermost = state'.group := by
        rw [outermost, enclosing', List.foldl_nil]
      have hparts : state.parts.flatMap Tree.conjuncts = state'.parts.flatMap Tree.conjuncts := by
        rw [parts, parts, houtermost, houtermost',
          SameGround.flatMap_conjuncts_ended ground.disjuncts hcanonical.group,
          SameGround.flatMap_conjuncts_ended ground.disjuncts' hcanonical'.group,
          ground.conjuncts]
      rw [tree?_eq_conjoined?, tree?_eq_conjoined?]
      exact Tree.conjoined?_congr hcanonical.isCanonical_parts hcanonical'.isCanonical_parts hparts
    | inside group enclosing enclosing' ground =>
      rw [enclosing] at hnil
      exact absurd hnil (List.concat_ne_nil _ _)
  | succ length ih =>
    -- A closing parenthesis changes neither tree, and takes both states one group further out.
    obtain ⟨closing, hclosing⟩ : ∃ token : Token, token.kind = .closing := ⟨⟨.closing, [], 0⟩, rfl⟩
    obtain ⟨outer, rest, henclosing⟩ := List.exists_cons_of_length_eq_add_one hlength
    have hread : (state.read closing).Alike (state'.read closing) :=
      h.read hcanonical hcanonical' (by simp [hclosing])
    rw [← tree?_read_closing state hclosing, ← tree?_read_closing state' hclosing]
    refine ih hread (hcanonical.isCanonical_read closing) (hcanonical'.isCanonical_read closing) ?_
    rw [henclosing, List.length_cons, Nat.add_right_cancel_iff] at hlength
    rw [read_of_closing state hclosing henclosing, closed]
    exact hlength

end Alike

/-- No disjunction sign of the tokens is read outside of all groups. -/
def EnclosesDisjunctions (state : Assembly) : List Token → Prop
  | [] => True
  | token :: tokens =>
    (token.kind = .or → state.enclosing ≠ []) ∧ (state.read token).EnclosesDisjunctions tokens

instance decidableEnclosesDisjunctions (state : Assembly) :
    (tokens : List Token) → Decidable (state.EnclosesDisjunctions tokens)
  | [] => .isTrue trivial
  | token :: tokens =>
    have := decidableEnclosesDisjunctions (state.read token) tokens
    inferInstanceAs (Decidable (_ ∧ _))

theorem enclosesDisjunctions_behind (earlier : Assembly) (tokens : List Token)
    (state : Assembly) :
    (behind earlier state).EnclosesDisjunctions tokens ↔ state.EnclosesDisjunctions tokens := by
  induction tokens generalizing state with
  | nil => rfl
  | cons token tokens ih =>
    rw [EnclosesDisjunctions, EnclosesDisjunctions, read_behind, ih]
    rfl

theorem Alike.foldl_read {state state' : Assembly} (h : state.Alike state')
    (hcanonical : state.Forall Tree.IsCanonical) (hcanonical' : state'.Forall Tree.IsCanonical)
    {tokens : List Token} (hor : state.EnclosesDisjunctions tokens) :
    (tokens.foldl Assembly.read state).Alike (tokens.foldl Assembly.read state') := by
  induction tokens generalizing state state' with
  | nil => exact h
  | cons token tokens ih =>
    exact ih (h.read hcanonical hcanonical' hor.1) (hcanonical.isCanonical_read token)
      (hcanonical'.isCanonical_read token) hor.2

end Assembly

/-- Every disjunction sign of the tokens stands inside a group. -/
def Token.HasEnclosedDisjunctions (tokens : List Token) : Prop :=
  ({} : Assembly).EnclosesDisjunctions tokens

instance (tokens : List Token) : Decidable (Token.HasEnclosedDisjunctions tokens) :=
  inferInstanceAs (Decidable (Assembly.EnclosesDisjunctions _ _))

namespace Tree

/-- Without a disjunction sign outside of its groups, a query has no disjuncts outside of them. -/
theorem disjuncts_ofTokens {tokens : List Token}
    (henclosing : (Assembly.ofTokens tokens).enclosing = [])
    (hor : Token.HasEnclosedDisjunctions tokens) :
    (Assembly.ofTokens tokens).group.disjuncts = [] := by
  have hempty : ({} : Assembly).Forall IsCanonical := isCanonical_ofTokens []
  have hstart : ({} : Assembly).Alike {} := .outside rfl rfl ⟨rfl, rfl, rfl, rfl⟩
  -- The run is compared with itself, as being alike includes that neither has a disjunct.
  have hend : (Assembly.ofTokens tokens).Alike (Assembly.ofTokens tokens) :=
    hstart.foldl_read hempty hempty hor
  cases hend with
  | outside enclosing enclosing' ground => exact ground.disjuncts
  | inside group enclosing enclosing' ground =>
    rw [henclosing] at enclosing
    exact absurd enclosing.symm (List.concat_ne_nil _ _)

/-- A stray closing parenthesis can be skipped if no negation sign stands right before it and all
disjunction signs stand inside groups. -/
theorem ofTokens?_skip {front back : List Token} {stray : Token} (hkind : stray.kind = .closing)
    (hfront : (Assembly.ofTokens front).enclosing = []) (hunsigned : Token.EndsUnsigned front)
    (hor : Token.HasEnclosedDisjunctions front) (hor' : Token.HasEnclosedDisjunctions back) :
    ofTokens? (front ++ stray :: back) = ofTokens? (front ++ back) := by
  have hcanonical := isCanonical_ofTokens front
  have hdisjuncts := disjuncts_ofTokens hfront hor
  have hread : (Assembly.ofTokens front).read stray = (Assembly.ofTokens front).strayed stray :=
    Assembly.read_of_stray _ hkind hfront
  have halike : ((Assembly.ofTokens front).strayed stray).Alike (Assembly.ofTokens front) :=
    .outside hfront hfront {
      disjuncts := rfl
      disjuncts' := hdisjuncts
      negated := (Assembly.negated_ofTokens hunsigned).symm
      conjuncts := Assembly.SameGround.flatMap_conjuncts_ended hdisjuncts hcanonical.group }
  have hcanonical_stray : ((Assembly.ofTokens front).strayed stray).Forall IsCanonical :=
    hread ▸ hcanonical.isCanonical_read stray
  have hback : ((Assembly.ofTokens front).strayed stray).EnclosesDisjunctions back := by
    rw [Assembly.strayed_eq_behind hfront, Assembly.enclosesDisjunctions_behind]
    exact hor'
  rw [ofTokens?_append, ofTokens?_append, List.foldl_cons, hread]
  exact (halike.foldl_read hcanonical_stray hcanonical hback).tree?_eq
    (hcanonical_stray.isCanonical_foldl_read back) (hcanonical.isCanonical_foldl_read back)

/-- A closing parenthesis that finds no open group cuts a query into two that are read by themselves
and joined by a conjunction.  That is to skip it if no negation sign stands right before it and no
disjunction sign on either side stands outside of all groups. -/
theorem ofTokens?_stray {front back : List Token} {stray : Token} (hkind : stray.kind = .closing)
    (hfront : (Assembly.ofTokens front).enclosing = []) :
    ofTokens? (front ++ stray :: back) = both? (ofTokens? front) (ofTokens? back) ∧
      (Token.EndsUnsigned front → Token.HasEnclosedDisjunctions front →
        Token.HasEnclosedDisjunctions back →
          ofTokens? (front ++ stray :: back) = ofTokens? (front ++ back)) :=
  ⟨ofTokens?_cut hkind hfront, ofTokens?_skip hkind hfront⟩

/-- The tokens of `!a (b | c)`, which stand before the stray parenthesis of `!a (b | c)) …`. -/
def beforeStray : List Token :=
  [⟨.not, "!", 0⟩, ⟨.word, "a", 1⟩, ⟨.opening, "(", 3⟩, ⟨.word, "b", 4⟩, ⟨.or, "|", 6⟩,
    ⟨.word, "c", 8⟩, ⟨.closing, ")", 9⟩]

/-- The tokens of `(d | !e) f) !(g | h`, which has a stray parenthesis and an open group itself. -/
def afterStray : List Token :=
  [⟨.opening, "(", 12⟩, ⟨.word, "d", 13⟩, ⟨.or, "|", 15⟩, ⟨.not, "!", 17⟩, ⟨.word, "e", 18⟩,
    ⟨.closing, ")", 19⟩, ⟨.word, "f", 21⟩, ⟨.closing, ")", 22⟩, ⟨.not, "!", 24⟩,
    ⟨.opening, "(", 25⟩, ⟨.word, "g", 26⟩, ⟨.or, "|", 28⟩, ⟨.word, "h", 30⟩]

/-- A stray parenthesis between two groups, with another one and an open group behind it. -/
theorem ofTokens?_stray_between_groups :
    (Assembly.ofTokens beforeStray).enclosing = [] ∧
      ofTokens? (beforeStray ++ ⟨.closing, ")", 10⟩ :: afterStray) =
        both? (some (.and [.not (.term "a"), .or [.term "b", .term "c"]]))
          (some (.and [.or [.term "d", .not (.term "e")], .term "f",
            .not (.or [.term "g", .term "h"])])) ∧
      ofTokens? (beforeStray ++ ⟨.closing, ")", 10⟩ :: afterStray) =
        ofTokens? (beforeStray ++ afterStray) := by
  have hclosed : (Assembly.ofTokens beforeStray).enclosing = [] := by
    cbv
  have hfront : ofTokens? beforeStray =
      some (.and [.not (.term "a"), .or [.term "b", .term "c"]]) := by
    cbv
  have hback : ofTokens? afterStray =
      some (.and [.or [.term "d", .not (.term "e")], .term "f",
        .not (.or [.term "g", .term "h"])]) := by
    cbv
  obtain ⟨hcut, hskip⟩ := @ofTokens?_stray beforeStray afterStray ⟨.closing, ")", 10⟩ rfl hclosed
  rw [hfront, hback] at hcut
  exact ⟨hclosed, hcut, hskip (by decide) (by decide) (by decide)⟩

/-- A stray parenthesis cannot be skipped behind a disjunction sign, even where no group is ever
opened: `a | b ) c` is a conjunction, and `a | b c` is a disjunction. -/
theorem not_forall_ofTokens?_skip :
    ¬∀ (front back : List Token) (stray : Token), stray.kind = .closing →
      (∀ before opening after, front ++ stray :: back = before ++ opening :: after →
        opening.kind = .opening → (Assembly.ofTokens before).enclosing.length < maxDepth) →
      (Assembly.ofTokens front).enclosing = [] →
        ofTokens? (front ++ stray :: back) = ofTokens? (front ++ back) := by
  intro hall
  have hkinds : ∀ token ∈ ([⟨.word, "a", 0⟩, ⟨.or, "|", 2⟩, ⟨.word, "b", 4⟩, ⟨.closing, ")", 6⟩,
      ⟨.word, "c", 8⟩] : List Token), token.kind ≠ .opening := by
    decide
  have hgroups : ∀ (before : List Token) (opening : Token) (after : List Token),
      [⟨.word, "a", 0⟩, ⟨.or, "|", 2⟩, ⟨.word, "b", 4⟩] ++
          ⟨.closing, ")", 6⟩ :: [⟨.word, "c", 8⟩] = before ++ opening :: after →
        opening.kind = .opening → (Assembly.ofTokens before).enclosing.length < maxDepth := by
    intro before opening after htokens hopening
    have hmem : opening ∈ before ++ opening :: after :=
      List.mem_append_right before List.mem_cons_self
    rw [← htokens] at hmem
    exact absurd hopening (hkinds opening hmem)
  have hskip := hall _ _ _ rfl hgroups rfl
  have hcut : some (Tree.and [.or [.term "a", .term "b"], .term "c"]) =
      some (.or [.term "a", .and [.term "b", .term "c"]]) := hskip
  cases hcut

end Tree

end TsQuery
