import TsQuery.Proofs.Assembly.Invariant
import TsQuery.Proofs.Notation.Nesting
import TsQuery.Proofs.Scan.Words
import TsQuery.Proofs.Tree.Height

/-!
# How deep groups and trees go

However long a sequence of tokens is and however deep its parentheses nest, no more than `maxDepth`
groups are open at a time, and a group adds only so much to the trees in it: a negation, a
conjunction and a disjunction.  What a tree satisfies therefore depends on how many groups can still
be opened around its parts (`Tree.Grading`); every state keeps to that (`Assembly.IsGraded.read`),
and so does the tree of all that was read (`Assembly.IsGraded.exists_of_mem_tree?`).  Its height and
the nesting of its parentheses are two such properties (`Tree.ofTokens?_bounded`).
-/

namespace TsQuery

/-! ### Gradings -/

/-- What trees satisfy at the places of a group, by how many groups can still be opened in the
group: its operands, its conjuncts, which are operands that may be negated, and its disjuncts.  The
tree of a group is an operand of one in which one more group can be opened. -/
structure Tree.Grading where
  operand : Nat → Tree → Prop
  conjunct : Nat → Tree → Prop
  disjunct : Nat → Tree → Prop
  operand_term : ∀ room word, operand room (.term word)
  operand_phrase : ∀ room words, operand room (.phrase words)
  conjunct_of_operand : ∀ room tree, operand room tree → conjunct room tree
  conjunct_not : ∀ room tree, operand room tree → conjunct room (.not tree)
  disjunct_conjunction : ∀ room trees, (∀ tree ∈ trees, conjunct room tree) →
    disjunct room (.conjunction trees)
  operand_disjunction : ∀ room trees, (∀ tree ∈ trees, disjunct room tree) →
    operand (room + 1) (.disjunction trees)

/-- The trees of a group satisfy what a grading says, if so many groups can still be opened
in it. -/
structure Group.IsGraded (grading : Tree.Grading) (room : Nat) (group : Group) : Prop where
  disjuncts : ∀ tree ∈ group.disjuncts, grading.disjunct room tree
  conjuncts : ∀ tree ∈ group.conjuncts, grading.conjunct room tree

/-- Groups that are open, from the inside out, satisfy what a grading says. -/
inductive Group.AreGraded (grading : Tree.Grading) : List Group → Prop
  | nil : AreGraded grading []
  | cons {group : Group} {around : List Group}
      (head : group.IsGraded grading (maxDepth - around.length))
      (tail : AreGraded grading around) : AreGraded grading (group :: around)

/-- All trees of a state satisfy what a grading says, and no more groups are open than can be. -/
structure Assembly.IsGraded (grading : Tree.Grading) (state : Assembly) : Prop where
  room : state.enclosing.length ≤ maxDepth
  group : state.group.IsGraded grading (maxDepth - state.enclosing.length)
  enclosing : Group.AreGraded grading state.enclosing
  ended : ∀ tree ∈ state.ended, grading.operand (maxDepth + 1) tree

variable {grading : Tree.Grading}

theorem Tree.Grading.operand_leaf? (grading : Tree.Grading) (room : Nat) {token : Token} :
    ∀ leaf ∈ token.leaf?, grading.operand room leaf := by
  intro leaf hleaf
  rcases Token.leaf?_eq_some hleaf with ⟨word, rfl⟩ | ⟨words, rfl, -⟩
  · exact grading.operand_term room word
  · exact grading.operand_phrase room words

namespace Group.IsGraded

variable {room : Nat} {group : Group}

theorem empty : Group.IsGraded grading room {} :=
  ⟨nofun, nofun⟩

theorem flip (h : group.IsGraded grading room) : group.flip.IsGraded grading room :=
  ⟨h.disjuncts, h.conjuncts⟩

theorem add_none (h : group.IsGraded grading room) : (group.add none).IsGraded grading room :=
  ⟨h.disjuncts, h.conjuncts⟩

theorem add (h : group.IsGraded grading room) {operand : Option Tree}
    (hoperand : ∀ tree ∈ operand, grading.operand room tree) :
    (group.add operand).IsGraded grading room := by
  cases operand with
  | none => exact h.add_none
  | some tree =>
    have htree : grading.operand room tree := hoperand tree rfl
    refine ⟨h.disjuncts, List.forall_mem_cons.2 ⟨?_, h.conjuncts⟩⟩
    split
    · exact grading.conjunct_not room tree htree
    · exact grading.conjunct_of_operand room tree htree

theorem endDisjunct (h : group.IsGraded grading room) :
    group.endDisjunct.IsGraded grading room := by
  unfold Group.endDisjunct
  split
  · exact ⟨h.disjuncts, h.conjuncts⟩
  · refine ⟨List.forall_mem_cons.2 ⟨?_, h.disjuncts⟩, nofun⟩
    refine grading.disjunct_conjunction room _ fun tree htree => ?_
    exact h.conjuncts tree (List.mem_reverse.1 htree)

/-- The tree of a group can be an operand of the group around it. -/
theorem tree? (h : group.IsGraded grading room) :
    ∀ tree ∈ group.tree?, grading.operand (room + 1) tree := by
  unfold Group.tree?
  split
  · nofun
  · rintro tree ⟨⟩
    refine grading.operand_disjunction room _ fun tree htree => ?_
    exact h.endDisjunct.disjuncts tree (List.mem_reverse.1 htree)

/-- A group that ends in the group around it, which is inside of others. -/
theorem add_tree? {outer : Group} {around : List Group} (houter : around.length < maxDepth)
    (h : group.IsGraded grading (maxDepth - (outer :: around).length))
    (hadd : outer.IsGraded grading (maxDepth - around.length)) :
    (outer.add group.tree?).IsGraded grading (maxDepth - around.length) := by
  have hroom : maxDepth - (outer :: around).length + 1 = maxDepth - around.length := by
    rw [List.length_cons]
    omega
  refine hadd.add fun tree htree => ?_
  rw [← hroom]
  exact h.tree? tree htree

end Group.IsGraded

/-! ### Steps and runs -/

namespace Assembly

namespace IsGraded

variable {state : Assembly}

/-- Reading a token keeps to a grading. -/
theorem read (h : state.IsGraded grading) (token : Token) :
    (state.read token).IsGraded grading := by
  obtain ⟨hroom, hgroup, henclosing, hended⟩ := h
  refine state.read_cases token ?operand ?forget ?or ?not ?opening ?closing ?stray
  case operand => exact fun _ => ⟨hroom, hgroup.add (grading.operand_leaf? _), henclosing, hended⟩
  case forget => exact fun _ => ⟨hroom, hgroup.add_none, henclosing, hended⟩
  case or => exact fun _ => ⟨hroom, hgroup.endDisjunct, henclosing, hended⟩
  case not => exact fun _ => ⟨hroom, hgroup.flip, henclosing, hended⟩
  case opening => exact fun _ hopen => ⟨hopen, .empty, .cons hgroup henclosing, hended⟩
  case closing =>
    intro _ outer rest heq
    rw [heq] at hroom hgroup henclosing
    cases henclosing with
    | cons houter hrest =>
      exact ⟨Nat.le_of_succ_le hroom, hgroup.add_tree? hroom houter, hrest, hended⟩
  case stray =>
    intro _ heq
    rw [heq] at hgroup
    refine ⟨hroom, .empty, henclosing, fun tree htree => ?_⟩
    rcases List.mem_append.1 htree with hmem | hmem
    · exact hgroup.tree? tree (Option.mem_toList.1 hmem)
    · exact hended tree hmem

/-- Reading a sequence of tokens keeps to a grading. -/
theorem foldl_read (h : state.IsGraded grading) (tokens : List Token) :
    (tokens.foldl Assembly.read state).IsGraded grading := by
  induction tokens generalizing state with
  | nil => exact h
  | cons token tokens ih => exact ih (h.read token)

/-- After any sequence of tokens, the state keeps to any grading. -/
theorem ofTokens (grading : Tree.Grading) (tokens : List Token) :
    (Assembly.ofTokens tokens).IsGraded grading := by
  have hempty : Assembly.IsGraded grading {} := ⟨Nat.zero_le _, .empty, .nil, nofun⟩
  exact hempty.foldl_read tokens

/-- Ending the open groups one by one leaves an outermost group that keeps to the grading. -/
theorem outermost (h : state.IsGraded grading) :
    state.outermost.IsGraded grading maxDepth := by
  obtain ⟨ended, group, enclosing, strays⟩ := state
  obtain ⟨hroom, hgroup, henclosing, -⟩ := h
  change (enclosing.foldl _ group).IsGraded grading maxDepth
  dsimp only at hroom hgroup henclosing
  induction enclosing generalizing group with
  | nil => exact hgroup
  | cons outer rest ih =>
    cases henclosing with
    | cons houter hrest =>
      exact ih (outer.add group.tree?) (Nat.le_of_succ_le hroom) (hgroup.add_tree? hroom houter)
        hrest

/-- The tree of all that was read joins operands of an outermost group. -/
theorem exists_of_mem_tree? (h : state.IsGraded grading) :
    ∀ tree ∈ state.tree?, ∃ trees, tree = .conjunction trees ∧
      ∀ operand ∈ trees, grading.operand (maxDepth + 1) operand := by
  unfold Assembly.tree?
  split
  · nofun
  · rintro tree ⟨⟩
    refine ⟨_, rfl, fun operand hoperand => ?_⟩
    rcases List.mem_append.1 (List.mem_reverse.1 hoperand) with hmem | hmem
    · exact h.outermost.tree? operand (Option.mem_toList.1 hmem)
    · exact h.ended operand hmem

end IsGraded

end Assembly

namespace Tree

/-! ### Height and nesting -/

/-- A group adds three nodes to the height of its operands: a negation, a conjunction and a
disjunction. -/
def heightGrading : Grading where
  operand room tree := tree.height ≤ 3 * room + 1
  conjunct room tree := tree.height ≤ 3 * room + 2
  disjunct room tree := tree.height ≤ 3 * room + 3
  operand_term room word := by
    rw [height]
    exact Nat.le_add_left 1 _
  operand_phrase room words := by
    rw [height]
    exact Nat.le_add_left 1 _
  conjunct_of_operand room tree h := Nat.le_succ_of_le h
  conjunct_not room tree h := by
    rw [height]
    exact Nat.succ_le_succ h
  disjunct_conjunction room trees h := Connective.and.height_combine_le h
  operand_disjunction room trees h := Connective.or.height_combine_le h

/-- A group adds one pair of parentheses to those of its operands. -/
def nestingGrading : Grading where
  operand room tree := tree.negatedDepth ≤ room + 1
  conjunct room tree := Connective.and.memberDepth tree ≤ room + 1
  disjunct room tree := tree.depth ≤ room + 1
  operand_term room word := Nat.zero_le _
  operand_phrase room words := Nat.le_add_left 1 room
  conjunct_of_operand room tree h :=
    Nat.le_trans (Connective.and.memberDepth_le_negatedDepth tree) h
  conjunct_not room tree h := by
    have hnot : Connective.and.memberDepth (.not tree) = tree.negatedDepth := tree.depth_not
    rwa [hnot]
  disjunct_conjunction room trees h := Connective.and.depth_combine_le h
  operand_disjunction room trees h :=
    Nat.le_trans (negatedDepth_le _) (Nat.succ_le_succ (Connective.or.depth_combine_le h))

/-- However long a sequence of tokens is and however deep its parentheses nest, no more than 32
groups are open at a time when it is read, its tree has at most 101 nodes on the way from its root
to a leaf, and the parentheses of the text of the tree nest at most 34 deep. -/
theorem ofTokens?_bounded (tokens : List Token) :
    (Assembly.ofTokens tokens).enclosing.length ≤ 32 ∧
      ∀ tree ∈ ofTokens? tokens, tree.height ≤ 101 ∧ tree.depth ≤ 34 ∧
        ((∀ word ∈ tree.words, Notation.HasNoParentheses word) →
          Notation.nesting tree.render = tree.depth) := by
  have hheights := Assembly.IsGraded.ofTokens heightGrading tokens
  have hnestings := Assembly.IsGraded.ofTokens nestingGrading tokens
  refine ⟨hheights.room, fun tree htree => ⟨?_, ?_, nesting_render_of_hasNoParentheses⟩⟩
  · obtain ⟨operands, rfl, hoperands⟩ := hheights.exists_of_mem_tree? tree htree
    exact Connective.and.height_combine_le hoperands
  · obtain ⟨operands, rfl, hoperands⟩ := hnestings.exists_of_mem_tree? tree htree
    refine Connective.and.depth_combine_le fun operand hoperand => ?_
    exact Nat.le_trans (Connective.and.memberDepth_le_negatedDepth operand)
      (hoperands operand hoperand)

/-- The tokens of `a | b !( … a | b !( a | b !"c d" ) … ) ) e`, with as many groups inside each
other as can be open, and a stray parenthesis. -/
def greatestTokens : List Token :=
  let layer : List Token := [⟨.word, "a", 0⟩, ⟨.or, "|", 0⟩, ⟨.word, "b", 0⟩, ⟨.not, "!", 0⟩]
  (List.replicate maxDepth (layer ++ [⟨.opening, "(", 0⟩])).flatten ++ layer ++
    [⟨.phrase ["c", "d"], "\"c d\"", 0⟩] ++ List.replicate (maxDepth + 1) ⟨.closing, ")", 0⟩ ++
    [⟨.word, "e", 0⟩]

set_option maxRecDepth 4000 in
/-- The bounds are reached. -/
theorem ofTokens?_bounded_of_greatest :
    ∃ tree ∈ ofTokens? greatestTokens,
      (tree.height ≤ 101 ∧ tree.depth ≤ 34 ∧ Notation.nesting tree.render = tree.depth) ∧
        tree.height = 101 ∧ tree.depth = 34 := by
  have hheight : (ofTokens? greatestTokens).map height = some 101 := by cbv
  have hdepth : (ofTokens? greatestTokens).map depth = some 34 := by cbv
  have htokens : ∀ token ∈ greatestTokens, ∀ word ∈ token.words,
      Notation.HasNoParentheses word := by
    decide
  obtain ⟨tree, htree, hhigh⟩ := Option.map_eq_some_iff.1 hheight
  rw [htree, Option.map_some, Option.some_inj] at hdepth
  obtain ⟨hheight, hdeep, hnesting⟩ := (ofTokens?_bounded greatestTokens).2 tree htree
  exact ⟨tree, htree, ⟨hheight, hdeep, hnesting (forall_words_ofTokens? htokens htree)⟩, hhigh,
    hdepth⟩

end Tree

end TsQuery
