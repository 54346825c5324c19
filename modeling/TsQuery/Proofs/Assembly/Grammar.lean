import TsQuery.Proofs.Assembly.Invariant
import TsQuery.Proofs.Tree.Value

/-!
# Well-formed queries

The grammar of a query that is not malformed, from the loosest to the tightest part:

    disjunction := conjunction ("|" conjunction)*
    conjunction := unary ("&"? unary)*
    unary       := "!"* primary
    primary     := word | phrase with at least one word | "(" disjunction ")"

A derivation carries its tokens, so that they can have any text and position, and both readings of
it are by recursion on the derivation: the tree that it stands for and its truth value.  The order
of the words in a chain is kept by building chains from the left.

The tokens of a derivation are read part by part, whatever has been read before: each part adds its
tree to the group being read (`Primary.foldl_read`, `Unary.foldl_read`, `Conjunction.foldl_read`,
`Disjunction.foldl_read`), provided that the parentheses still to come fit under the limit.
-/

namespace TsQuery

namespace Grammar

/-- A token of one kind. -/
abbrev Sign (kind : TokenKind) := { token : Token // token.kind = kind }

mutual

/-- A word, a phrase or a group. -/
inductive Primary
  | word (token : Sign .word)
  | phrase (first : Text) (more : List Text) (token : Sign (.phrase (first :: more)))
  | group (opening : Sign .opening) (inner : Disjunction) (closing : Sign .closing)

/-- A primary after a run of negation signs. -/
inductive Unary
  | primary (operand : Primary)
  | negation (sign : Sign .not) (operand : Unary)

/-- A chain of operands, side by side or with a sign between them. -/
inductive Conjunction
  | single (operand : Unary)
  | adjacent (chain : Conjunction) (operand : Unary)
  | joined (chain : Conjunction) (sign : Sign .and) (operand : Unary)

/-- A chain of conjunctions with a sign between each two. -/
inductive Disjunction
  | single (chain : Conjunction)
  | joined (chain : Disjunction) (sign : Sign .or) (disjunct : Conjunction)

end

/-! ### What a derivation reads as -/

mutual

/-- The tokens of a primary. -/
def Primary.tokens : Primary → List Token
  | .word token => [token.1]
  | .phrase _ _ token => [token.1]
  | .group opening inner closing => opening.1 :: (inner.tokens ++ [closing.1])

/-- The tokens of a primary with its signs. -/
def Unary.tokens : Unary → List Token
  | .primary operand => operand.tokens
  | .negation sign operand => sign.1 :: operand.tokens

/-- The tokens of a chain of operands. -/
def Conjunction.tokens : Conjunction → List Token
  | .single operand => operand.tokens
  | .adjacent chain operand => chain.tokens ++ operand.tokens
  | .joined chain sign operand => chain.tokens ++ sign.1 :: operand.tokens

/-- The tokens of a chain of conjunctions. -/
def Disjunction.tokens : Disjunction → List Token
  | .single chain => chain.tokens
  | .joined chain sign disjunct => chain.tokens ++ sign.1 :: disjunct.tokens

end

mutual

/-- How deep the parentheses of a primary nest. -/
def Primary.depth : Primary → Nat
  | .word _ => 0
  | .phrase _ _ _ => 0
  | .group _ inner _ => inner.depth + 1

/-- How deep parentheses nest in a primary with signs. -/
def Unary.depth : Unary → Nat
  | .primary operand => operand.depth
  | .negation _ operand => operand.depth

/-- How deep parentheses nest in a chain of operands. -/
def Conjunction.depth : Conjunction → Nat
  | .single operand => operand.depth
  | .adjacent chain operand => max chain.depth operand.depth
  | .joined chain _ operand => max chain.depth operand.depth

/-- How deep parentheses nest in a chain of conjunctions. -/
def Disjunction.depth : Disjunction → Nat
  | .single chain => chain.depth
  | .joined chain _ disjunct => max chain.depth disjunct.depth

end

/-- The length of the run of negation signs. -/
def Unary.signs : Unary → Nat
  | .primary _ => 0
  | .negation _ operand => operand.signs + 1

/-- The tree of a phrase: a phrase of one word is a term. -/
def quoted (first : Text) : List Text → Tree
  | [] => .term first
  | more => .phrase (first :: more)

/-- A tree after a run of negation signs: one negation if the run is odd, else none. -/
def signed (signs : Nat) (tree : Tree) : Tree :=
  if signs % 2 = 1 then .not tree else tree

mutual

/-- The tree of a primary: a group is its inner tree. -/
def Primary.tree : Primary → Tree
  | .word token => .term token.1.text
  | .phrase first more _ => quoted first more
  | .group _ inner _ => Tree.disjunction inner.parts

/-- The tree that the signs stand before. -/
def Unary.bare : Unary → Tree
  | .primary operand => operand.tree
  | .negation _ operand => operand.bare

/-- The trees of the operands of a chain. -/
def Conjunction.parts : Conjunction → List Tree
  | .single operand => [signed operand.signs operand.bare]
  | .adjacent chain operand => chain.parts ++ [signed operand.signs operand.bare]
  | .joined chain _ operand => chain.parts ++ [signed operand.signs operand.bare]

/-- The trees of the conjunctions of a chain. -/
def Disjunction.parts : Disjunction → List Tree
  | .single chain => [Tree.conjunction chain.parts]
  | .joined chain _ disjunct => chain.parts ++ [Tree.conjunction disjunct.parts]

end

/-- The tree of a chain of conjunctions. -/
def Disjunction.tree (query : Disjunction) : Tree :=
  Tree.disjunction query.parts

mutual

/-- The truth value of a primary. -/
def Primary.value (holds : Assignment) : Primary → Bool
  | .word token => holds [token.1.text]
  | .phrase first more _ => holds (first :: more)
  | .group _ inner _ => inner.value holds

/-- The truth value of a primary with signs: every sign negates it. -/
def Unary.value (holds : Assignment) : Unary → Bool
  | .primary operand => operand.value holds
  | .negation _ operand => !operand.value holds

/-- The truth value of a chain of operands: all of them. -/
def Conjunction.value (holds : Assignment) : Conjunction → Bool
  | .single operand => operand.value holds
  | .adjacent chain operand => chain.value holds && operand.value holds
  | .joined chain _ operand => chain.value holds && operand.value holds

/-- The truth value of a chain of conjunctions: any of them. -/
def Disjunction.value (holds : Assignment) : Disjunction → Bool
  | .single chain => chain.value holds
  | .joined chain _ disjunct => chain.value holds || disjunct.value holds

end

/-! ### The tree has the truth value of the derivation -/

theorem value_quoted (holds : Assignment) (first : Text) (more : List Text) :
    (quoted first more).value holds = holds (first :: more) := by
  cases more with
  | nil => rw [quoted, Tree.value]
  | cons second rest => rw [quoted, Tree.value]; exact List.cons_ne_nil second rest

/-- One more sign negates the truth value once more. -/
theorem value_signed_succ (holds : Assignment) (signs : Nat) (tree : Tree) :
    (signed (signs + 1) tree).value holds = !(signed signs tree).value holds := by
  unfold signed
  rcases Nat.mod_two_eq_zero_or_one signs with heven | hodd
  · rw [if_pos (by omega), if_neg (by omega), Tree.value]
  · rw [if_neg (by omega), if_pos (by omega), Tree.value, Bool.not_not]

mutual

theorem Primary.value_tree (holds : Assignment) (primary : Primary) :
    primary.tree.value holds = primary.value holds := by
  match primary with
  | .word token => rw [Primary.tree, Primary.value, Tree.value]
  | .phrase first more _ => rw [Primary.tree, Primary.value, value_quoted]
  | .group _ inner _ =>
    rw [Primary.tree, Primary.value, ← inner.evaluate_parts holds]
    exact Connective.value_combine .or holds inner.parts

theorem Unary.value_signed (holds : Assignment) (unary : Unary) :
    (signed unary.signs unary.bare).value holds = unary.value holds := by
  match unary with
  | .primary operand =>
    rw [Unary.value, ← operand.value_tree holds]
    rfl
  | .negation _ operand =>
    rw [Unary.value, ← operand.value_signed holds]
    exact value_signed_succ holds operand.signs operand.bare

theorem Conjunction.evaluate_parts (holds : Assignment) (chain : Conjunction) :
    Connective.and.evaluate (chain.parts.map (Tree.value holds)) = chain.value holds := by
  match chain with
  | .single operand =>
    rw [Conjunction.parts, Conjunction.value, ← operand.value_signed holds, List.map_singleton,
      Connective.evaluate_singleton]
  | .adjacent chain operand =>
    rw [Conjunction.parts, Conjunction.value, ← chain.evaluate_parts holds,
      ← operand.value_signed holds]
    simp [Connective.evaluate]
  | .joined chain _ operand =>
    rw [Conjunction.parts, Conjunction.value, ← chain.evaluate_parts holds,
      ← operand.value_signed holds]
    simp [Connective.evaluate]

theorem Disjunction.evaluate_parts (holds : Assignment) (chain : Disjunction) :
    Connective.or.evaluate (chain.parts.map (Tree.value holds)) = chain.value holds := by
  match chain with
  | .single conjuncts =>
    rw [Disjunction.parts, Disjunction.value, ← conjuncts.evaluate_parts holds, List.map_singleton,
      Connective.evaluate_singleton]
    exact Connective.value_combine .and holds conjuncts.parts
  | .joined chain _ conjuncts =>
    have hlast := Connective.value_combine .and holds conjuncts.parts
    rw [conjuncts.evaluate_parts holds] at hlast
    rw [Disjunction.parts, Disjunction.value, ← chain.evaluate_parts holds, ← hlast]
    simp [Connective.evaluate, Connective.combine]

end

/-! ### Reading the tokens of a derivation -/

theorem ofPhrase?_cons (first : Text) (more : List Text) :
    Tree.ofPhrase? (first :: more) = some (quoted first more) := by
  cases more with
  | nil => rfl
  | cons second rest => rfl

/-- A group after a run of negation signs. -/
def afterSigns (group : Group) (signs : Nat) : Group :=
  if signs % 2 = 1 then group.flip else group

/-- A group with more operands, none of them negated by what was read before. -/
def extended (group : Group) (trees : List Tree) : Group :=
  { group with conjuncts := trees.reverse ++ group.conjuncts }

theorem afterSigns_flip (group : Group) (signs : Nat) :
    afterSigns group.flip signs = afterSigns group (signs + 1) := by
  have hflip : group.flip.flip = group := by
    simp only [Group.flip, Bool.not_not]
  unfold afterSigns
  rcases Nat.mod_two_eq_zero_or_one signs with heven | hodd
  · rw [if_neg (by omega), if_pos (by omega)]
  · rw [if_pos (by omega), if_neg (by omega), hflip]

/-- Without a pending negation, the signs of the run alone decide whether the operand is negated. -/
theorem add_afterSigns {group : Group} (h : group.negated = false) (signs : Nat) (tree : Tree) :
    (afterSigns group signs).add (some tree) = extended group [signed signs tree] := by
  unfold afterSigns signed extended
  split
  · simp only [Group.add, Group.flip, h, Bool.not_false, if_true]
    rfl
  · simp only [Group.add, h, Bool.false_eq_true, if_false]
    rfl

theorem extended_extended (group : Group) (first second : List Tree) :
    extended (extended group first) second = extended group (first ++ second) := by
  simp only [extended, List.reverse_append, List.append_assoc]

/-- Without a pending negation, a conjunction sign changes nothing. -/
theorem add_none_of_negated {group : Group} (h : group.negated = false) :
    group.add none = group := by
  simp only [Group.add, ← h]

/-- A chain of operands has an operand. -/
theorem Conjunction.parts_ne_nil (chain : Conjunction) : chain.parts ≠ [] := by
  cases chain with
  | single operand =>
    rw [parts]
    exact List.cons_ne_nil _ _
  | adjacent chain operand =>
    rw [parts]
    exact List.append_ne_nil_of_right_ne_nil _ (List.cons_ne_nil _ _)
  | joined chain sign operand =>
    rw [parts]
    exact List.append_ne_nil_of_right_ne_nil _ (List.cons_ne_nil _ _)

/-- A chain of conjunctions has a conjunction. -/
theorem Disjunction.parts_ne_nil (chain : Disjunction) : chain.parts ≠ [] := by
  cases chain with
  | single conjuncts =>
    rw [parts]
    exact List.cons_ne_nil _ _
  | joined chain sign conjuncts =>
    rw [parts]
    exact List.append_ne_nil_of_right_ne_nil _ (List.cons_ne_nil _ _)

/-- Completing the disjunct after a whole chain of operands makes their conjunction a disjunct. -/
theorem endDisjunct_extended (chain : Conjunction) (disjuncts : List Tree) :
    (extended { disjuncts } chain.parts).endDisjunct =
      { disjuncts := Tree.conjunction chain.parts :: disjuncts } := by
  have hne : chain.parts.reverse.isEmpty = false := by
    rw [List.isEmpty_eq_false_iff, ne_eq, List.reverse_eq_nil_iff]
    exact chain.parts_ne_nil
  simp only [extended, List.append_nil, Group.endDisjunct, hne, Bool.false_eq_true, if_false,
    List.reverse_reverse]

/-- A group ends as the disjunction of its disjuncts, if there are any. -/
theorem tree?_of_endDisjunct {group : Group} (chain : Disjunction)
    (h : group.endDisjunct = { disjuncts := chain.parts.reverse }) :
    group.tree? = some chain.tree := by
  rw [Group.tree?, h]
  split
  · next hnil => exact absurd (List.reverse_eq_nil_iff.1 hnil) chain.parts_ne_nil
  · rw [List.reverse_reverse, Disjunction.tree]

mutual

/-- Reading a primary adds its tree to the group being read. -/
theorem Primary.foldl_read (primary : Primary) (state : Assembly)
    (h : state.enclosing.length + primary.depth ≤ maxDepth) :
    primary.tokens.foldl Assembly.read state =
      state.withGroup (state.group.add (some primary.tree)) := by
  match primary with
  | .word token =>
    rw [Primary.tokens, Primary.tree, List.foldl_cons, List.foldl_nil,
      state.read_of_word token.2, Token.leaf?_of_word token.2]
  | .phrase first more token =>
    rw [Primary.tokens, Primary.tree, List.foldl_cons, List.foldl_nil,
      state.read_of_phrase token.2, Token.leaf?_of_phrase token.2, ofPhrase?_cons]
  | .group opening inner closing =>
    rw [Primary.depth] at h
    have hroom : state.enclosing.length < maxDepth := by omega
    have hdepth : state.opened.enclosing.length + inner.depth ≤ maxDepth := by
      rw [Assembly.opened, List.length_cons]
      omega
    obtain ⟨group, hfold, hend⟩ := inner.foldl_read state.opened rfl hdepth
    have hclosing : (state.opened.withGroup group).read closing.1 =
        state.withGroup (state.group.add group.tree?) :=
      Assembly.read_of_closing _ closing.2 rfl
    rw [Primary.tokens, List.foldl_cons, List.foldl_append, state.read_of_opening opening.2 hroom,
      hfold, List.foldl_cons, List.foldl_nil, hclosing, tree?_of_endDisjunct inner hend]
    rfl

/-- Reading a primary with its signs adds its tree, the signs counted in. -/
theorem Unary.foldl_read (unary : Unary) (state : Assembly)
    (h : state.enclosing.length + unary.depth ≤ maxDepth) :
    unary.tokens.foldl Assembly.read state =
      state.withGroup ((afterSigns state.group unary.signs).add (some unary.bare)) := by
  match unary with
  | .primary operand =>
    rw [Unary.depth] at h
    exact operand.foldl_read state h
  | .negation sign operand =>
    rw [Unary.depth] at h
    rw [Unary.tokens, List.foldl_cons, state.read_of_not sign.2,
      operand.foldl_read (state.withGroup state.group.flip) h, Assembly.group_withGroup,
      afterSigns_flip, Assembly.withGroup_withGroup]
    rfl

/-- Reading a chain of operands adds their trees. -/
theorem Conjunction.foldl_read (chain : Conjunction) (state : Assembly)
    (hnegated : state.group.negated = false)
    (h : state.enclosing.length + chain.depth ≤ maxDepth) :
    chain.tokens.foldl Assembly.read state =
      state.withGroup (extended state.group chain.parts) := by
  match chain with
  | .single operand =>
    rw [Conjunction.depth] at h
    rw [Conjunction.tokens, operand.foldl_read state h, add_afterSigns hnegated]
    rfl
  | .adjacent chain operand =>
    rw [Conjunction.depth] at h
    have hchain : (extended state.group chain.parts).negated = false := hnegated
    rw [Conjunction.tokens, List.foldl_append, chain.foldl_read state hnegated (by omega),
      operand.foldl_read _ (by rw [Assembly.enclosing_withGroup]; omega), Assembly.group_withGroup,
      add_afterSigns hchain, extended_extended, Assembly.withGroup_withGroup]
    rfl
  | .joined chain sign operand =>
    rw [Conjunction.depth] at h
    have hchain : (extended state.group chain.parts).negated = false := hnegated
    rw [Conjunction.tokens, List.foldl_append, chain.foldl_read state hnegated (by omega),
      List.foldl_cons, Assembly.read_of_and _ sign.2, Assembly.group_withGroup,
      add_none_of_negated hchain, Assembly.withGroup_withGroup,
      operand.foldl_read _ (by rw [Assembly.enclosing_withGroup]; omega), Assembly.group_withGroup,
      add_afterSigns hchain, extended_extended, Assembly.withGroup_withGroup]
    rfl

/-- Reading a chain of conjunctions at the beginning of a group leaves a group in which they are the
disjuncts, once the last of them is complete. -/
theorem Disjunction.foldl_read (chain : Disjunction) (state : Assembly) (hgroup : state.group = {})
    (h : state.enclosing.length + chain.depth ≤ maxDepth) :
    ∃ group, chain.tokens.foldl Assembly.read state = state.withGroup group ∧
      group.endDisjunct = { disjuncts := chain.parts.reverse } := by
  match chain with
  | .single conjuncts =>
    rw [Disjunction.depth] at h
    refine ⟨extended {} conjuncts.parts, ?_, endDisjunct_extended conjuncts []⟩
    rw [Disjunction.tokens, conjuncts.foldl_read state (by rw [hgroup]) h, hgroup]
  | .joined chain sign conjuncts =>
    rw [Disjunction.depth] at h
    obtain ⟨group, hfold, hend⟩ := chain.foldl_read state hgroup (by omega)
    refine ⟨extended { disjuncts := chain.parts.reverse } conjuncts.parts, ?_, ?_⟩
    · rw [Disjunction.tokens, List.foldl_append, List.foldl_cons, hfold,
        Assembly.read_of_or _ sign.2, Assembly.group_withGroup, hend,
        conjuncts.foldl_read _ rfl (by rw [Assembly.enclosing_withGroup,
          Assembly.enclosing_withGroup]; omega),
        Assembly.group_withGroup, Assembly.withGroup_withGroup, Assembly.withGroup_withGroup]
    · rw [endDisjunct_extended, Disjunction.parts, List.reverse_append]
      rfl

end

/-- The tree of the tokens of a derivation is the tree of the derivation. -/
theorem Disjunction.ofTokens?_tokens (query : Disjunction) (h : query.depth ≤ maxDepth) :
    Tree.ofTokens? query.tokens = some query.tree := by
  have hdepth : ({} : Assembly).enclosing.length + query.depth ≤ maxDepth := by
    rwa [List.length_nil, Nat.zero_add]
  obtain ⟨group, hfold, hend⟩ := query.foldl_read {} rfl hdepth
  rw [Tree.ofTokens?_of_foldl_read hfold, tree?_of_endDisjunct query hend]

/-- The tree of a derivation has the truth value of the derivation. -/
theorem Disjunction.value_tree (holds : Assignment) (query : Disjunction) :
    query.tree.value holds = query.value holds :=
  (Connective.value_combine .or holds query.parts).trans (query.evaluate_parts holds)

/-- A well-formed query whose parentheses nest no deeper than the limit is read as its derivation
says, and means under every assignment what the derivation means. -/
theorem ofTokens?_derivation (query : Disjunction) (h : query.depth ≤ maxDepth) :
    Tree.ofTokens? query.tokens = some query.tree ∧
      ∀ holds : Assignment, query.tree.value holds = query.value holds :=
  ⟨query.ofTokens?_tokens h, fun holds => query.value_tree holds⟩

/-- The query `!!!(a | "b") c`. -/
def sample : Disjunction :=
  let inner : Disjunction :=
    .joined (.single (.single (.primary (.word ⟨⟨.word, ['a'], 4⟩, rfl⟩)))) ⟨⟨.or, ['|'], 6⟩, rfl⟩
      (.single (.primary (.phrase ['b'] [] ⟨⟨.phrase [['b']], ['"', 'b', '"'], 8⟩, rfl⟩)))
  let group : Primary := .group ⟨⟨.opening, ['('], 3⟩, rfl⟩ inner ⟨⟨.closing, [')'], 11⟩, rfl⟩
  let sign (position : Nat) : Sign .not := ⟨⟨.not, ['!'], position⟩, rfl⟩
  let negated : Unary :=
    .negation (sign 0) (.negation (sign 1) (.negation (sign 2) (.primary group)))
  .single (.adjacent (.single negated) (.primary (.word ⟨⟨.word, ['c'], 13⟩, rfl⟩)))

theorem ofTokens?_derivation_sample :
    sample.depth ≤ maxDepth ∧
      Tree.ofTokens? sample.tokens =
        some (.and [.not (.or [.term ['a'], .term ['b']]), .term ['c']]) ∧
      ∀ holds : Assignment, sample.tree.value holds =
        (!(holds [['a']] || holds [['b']]) && holds [['c']]) := by
  have hdepth : sample.depth ≤ maxDepth := by decide
  obtain ⟨htree, hvalue⟩ := ofTokens?_derivation sample hdepth
  refine ⟨hdepth, htree, fun holds => ?_⟩
  rw [hvalue holds]
  change (!!!(holds [['a']] || holds [['b']]) && holds [['c']]) = _
  rw [Bool.not_not]

end Grammar

end TsQuery
