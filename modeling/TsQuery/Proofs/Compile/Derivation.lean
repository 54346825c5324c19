import TsQuery.Proofs.Assembly.Grammar
import TsQuery.Proofs.Assembly.Nested
import TsQuery.Proofs.Scan.Symbols
import TsQuery.Proofs.Tree.Settled

/-!
# Compiled texts as queries

The symbols of a tree, taken as tokens of a query, are balanced and nest as deep as the tree
(`Tree.nested_symbols`).  If the leaves of the tree are terms that stand for themselves in a query,
they have a derivation in the grammar of queries that stands for the settled tree
(`Tree.isDerivable`): a run of negation signs in a text is the negations that stand directly
under one another in the tree, and reading cancels them out.
-/

namespace TsQuery

namespace Notation

/-- The tokens of symbols in parentheses. -/
theorem tokensOf_enclosed (symbols : List Symbol) :
    tokensOf (enclosed symbols) =
      ⟨.opening, ['('], 0⟩ :: (tokensOf symbols ++ [⟨.closing, [')'], 0⟩]) := by
  rw [enclosed, tokensOf, List.flatMap_cons, List.flatMap_append, List.flatMap_singleton]
  rfl

/-- A chain is its first member, and the operator before each other one. -/
theorem chained_cons (operator : Operator) (member : List Symbol) (members : List (List Symbol)) :
    chained operator (member :: members) =
      member ++ members.flatMap (.operator operator :: ·) := by
  induction members generalizing member with
  | nil =>
    rw [chained, List.intercalate_singleton]
    exact (List.append_nil member).symm
  | cons next more ih =>
    have hrest := ih next
    rw [chained] at hrest ⊢
    rw [List.intercalate_cons_cons, hrest, List.append_assoc]
    rfl

end Notation

/-! ### Balance -/

namespace Token.Nested

open Notation

/-- A single token that is no parenthesis and no phrase. -/
theorem single {kind : TokenKind} (h : kind = .word ∨ kind = .and ∨ kind = .or ∨ kind = .not)
    (text : Text) : Nested 0 [⟨kind, text, 0⟩] := by
  have hleaf : ∀ leaf ∈ Token.leaf? ⟨kind, text, 0⟩, leaf.depth ≤ 0 := by
    rcases h with rfl | rfl | rfl | rfl
    · rintro leaf ⟨⟩
      exact Nat.le_refl 0
    all_goals nofun
  refine .flat ?_ ?_ hleaf (.nil 0)
  · rcases h with rfl | rfl | rfl | rfl <;> nofun
  · rcases h with rfl | rfl | rfl | rfl <;> nofun

/-- An operand is a word or an operator, or nothing at all. -/
theorem operand (word : Text) : Nested 0 (Symbol.operand word).tokens := by
  rw [Symbol.tokens]
  cases hkind : Query.wordKind? word with
  | none => exact .nil 0
  | some kind => exact single (Query.wordKind?_eq_some hkind) word

/-- An operator is a token that is no parenthesis, or nothing at all. -/
theorem operator (operator : Operator) : Nested 0 (Symbol.operator operator).tokens := by
  cases operator with
  | or => exact single (by decide) _
  | and => exact single (by decide) _
  | followedBy => exact .nil 0
  | not => exact single (by decide) _

/-- Parentheses around balanced symbols make them nest one deeper. -/
theorem enclosed {depth : Nat} {symbols : List Symbol} (h : Nested depth (tokensOf symbols)) :
    Nested (depth + 1) (tokensOf (Notation.enclosed symbols)) := by
  rw [tokensOf_enclosed]
  exact .group rfl rfl h (.nil _)

/-- Balanced members with an operator between each two are balanced. -/
theorem chained (operator : Operator) {depth : Nat} {members : List (List Symbol)}
    (h : ∀ member ∈ members, Nested depth (tokensOf member)) :
    Nested depth (tokensOf (Notation.chained operator members)) := by
  have hrest {more : List (List Symbol)}
      (hmore : ∀ member ∈ more, Nested depth (tokensOf member)) :
      Nested depth (tokensOf (more.flatMap (.operator operator :: ·))) := by
    induction more with
    | nil => exact .nil depth
    | cons next more ih =>
      obtain ⟨hnext, hmore⟩ := List.forall_mem_cons.1 hmore
      have hsign := (Nested.operator operator).mono (Nat.zero_le depth)
      rw [List.flatMap_cons, tokensOf_append]
      exact (hsign.append hnext).append (ih hmore)
  cases members with
  | nil => exact .nil depth
  | cons member members =>
    obtain ⟨hmember, hmembers⟩ := List.forall_mem_cons.1 h
    rw [chained_cons, tokensOf_append]
    exact hmember.append (hrest hmembers)

end Token.Nested

namespace Tree

open Notation

/-- The symbols of a tree are balanced and nest as deep as the tree. -/
theorem nested_symbols (tree : Tree) : Token.Nested tree.depth (tokensOf tree.symbols) := by
  have hword (word : Text) : Token.Nested 0 (tokensOf [.operand word]) := by
    rw [tokensOf_singleton]
    exact .operand word
  induction tree using Tree.induct with
  | term word =>
    rw [depth, symbols]
    exact hword word
  | phrase words =>
    rw [depth, symbols]
    refine .enclosed (.chained .followedBy (List.forall_mem_map.2 fun word _ => hword word))
  | not operand ih =>
    have hoperand : Token.Nested (not operand).depth
        (tokensOf (if operand.isCompound then enclosed operand.symbols else operand.symbols)) := by
      rw [depth]
      split
      · exact ih.enclosed
      · exact ih
    have hsign := (Token.Nested.operator .not).mono (Nat.zero_le (not operand).depth)
    rw [symbols]
    exact hsign.append hoperand
  | and operands ih =>
    have hbound := (Connective.depth_node_le_iff (c := .and)).1 (Nat.le_refl (and operands).depth)
    rw [symbols, conjunctSymbols_eq_map]
    refine .chained .and (List.forall_mem_map.2 fun tree htree => ?_)
    have hmember : Token.Nested (Connective.and.memberDepth tree)
        (tokensOf (if tree.isOr then enclosed tree.symbols else tree.symbols)) := by
      rw [Connective.memberDepth]
      split
      · exact (ih tree htree).enclosed
      · exact ih tree htree
    exact hmember.mono (hbound tree htree)
  | or operands ih =>
    have hbound := (Connective.depth_node_le_iff (c := .or)).1 (Nat.le_refl (or operands).depth)
    rw [symbols, disjunctSymbols_eq_map]
    refine .chained .or (List.forall_mem_map.2 fun tree htree => ?_)
    exact (ih tree htree).mono (hbound tree htree)

end Tree

/-! ### Derivations -/

namespace Grammar

open Notation

/-- A unary derives symbols and stands for a tree, no deeper than a bound. -/
structure Unary.Derives (unary : Unary) (symbols : List Symbol) (tree : Tree) (bound : Nat) :
    Prop where
  tokens : unary.tokens = tokensOf symbols
  tree : signed unary.signs unary.bare = tree
  isNot_bare : unary.bare.isNot = false
  depth : unary.depth ≤ bound

/-- A chain of operands derives symbols and stands for a tree, no deeper than a bound. -/
structure Conjunction.Derives (chain : Conjunction) (symbols : List Symbol) (tree : Tree)
    (bound : Nat) : Prop where
  tokens : chain.tokens = tokensOf symbols
  tree : Tree.conjunction chain.parts = tree
  depth : chain.depth ≤ bound

/-- A chain of conjunctions derives symbols and stands for a tree, no deeper than a bound. -/
structure Disjunction.Derives (query : Disjunction) (symbols : List Symbol) (tree : Tree)
    (bound : Nat) : Prop where
  tokens : query.tokens = tokensOf symbols
  tree : query.tree = tree
  depth : query.depth ≤ bound

theorem Unary.Derives.mono {unary : Unary} {symbols : List Symbol} {tree : Tree}
    {bound larger : Nat} (h : unary.Derives symbols tree bound) (hle : bound ≤ larger) :
    unary.Derives symbols tree larger :=
  ⟨h.tokens, h.tree, h.isNot_bare, Nat.le_trans h.depth hle⟩

theorem Conjunction.Derives.mono {chain : Conjunction} {symbols : List Symbol} {tree : Tree}
    {bound larger : Nat} (h : chain.Derives symbols tree bound) (hle : bound ≤ larger) :
    chain.Derives symbols tree larger :=
  ⟨h.tokens, h.tree, Nat.le_trans h.depth hle⟩

/-- One more sign before what is no negation negates the tree, or takes its negation away. -/
theorem signed_succ {tree : Tree} (h : tree.isNot = false) (signs : Nat) :
    signed (signs + 1) tree = (signed signs tree).negation := by
  unfold signed
  rcases Nat.mod_two_eq_zero_or_one signs with heven | hodd
  · rw [if_pos (by omega), if_neg (by omega), Tree.negation_of_isNot h]
  · rw [if_neg (by omega), if_pos (by omega), Tree.negation]

/-- A word that stands for itself is a unary. -/
theorem Unary.exists_derives_word {word : Text} (h : Query.wordKind? word = some .word) :
    ∃ unary : Unary, unary.Derives [.operand word] (.term word) 0 := by
  refine ⟨.primary (.word ⟨⟨.word, word, 0⟩, rfl⟩), ?_, rfl, rfl, Nat.le_refl 0⟩
  rw [tokensOf_singleton, Symbol.tokens, h]
  rfl

/-- A negation sign before a unary negates its tree, or takes its negation away. -/
theorem Unary.Derives.negation {unary : Unary} {symbols : List Symbol} {tree : Tree} {bound : Nat}
    (h : unary.Derives symbols tree bound) :
    ∃ negated : Unary, negated.Derives (.operator .not :: symbols) tree.negation bound := by
  refine ⟨.negation ⟨⟨.not, ['!'], 0⟩, rfl⟩ unary, ?_, ?_, h.isNot_bare, h.depth⟩
  · rw [Unary.tokens, h.tokens]
    rfl
  · rw [← h.tree]
    exact signed_succ h.isNot_bare unary.signs

/-- A query in parentheses is a unary. -/
theorem Disjunction.Derives.group {query : Disjunction} {symbols : List Symbol} {tree : Tree}
    {bound : Nat} (h : query.Derives symbols tree bound) (hnot : tree.isNot = false) :
    ∃ unary : Unary, unary.Derives (enclosed symbols) tree (bound + 1) := by
  refine ⟨.primary (.group ⟨⟨.opening, ['('], 0⟩, rfl⟩ query ⟨⟨.closing, [')'], 0⟩, rfl⟩),
    ?_, h.tree, ?_, Nat.succ_le_succ h.depth⟩
  · rw [tokensOf_enclosed, ← h.tokens]
    rfl
  · rw [← h.tree] at hnot
    exact hnot

/-- A unary by itself is a chain. -/
theorem Unary.Derives.single {unary : Unary} {symbols : List Symbol} {tree : Tree} {bound : Nat}
    (h : unary.Derives symbols tree bound) (hcanonical : tree.IsCanonical) :
    ∃ chain : Conjunction, chain.Derives symbols tree bound := by
  refine ⟨.single unary, h.tokens, ?_, h.depth⟩
  rw [Conjunction.parts, h.tree]
  exact Connective.and.combine_singleton hcanonical

/-- A chain of operands by itself is a query. -/
theorem Conjunction.Derives.single {chain : Conjunction} {symbols : List Symbol} {tree : Tree}
    {bound : Nat} (h : chain.Derives symbols tree bound) (hcanonical : tree.IsCanonical) :
    ∃ query : Disjunction, query.Derives symbols tree bound := by
  refine ⟨.single chain, h.tokens, ?_, h.depth⟩
  rw [Disjunction.tree, Disjunction.parts, h.tree]
  exact Connective.or.combine_singleton hcanonical

section Chains

variable {f : Tree → List Symbol} {bound : Nat} {members : List Tree}

/-- A chain of operands goes on with more of them, each after a sign. -/
theorem Conjunction.exists_longer (chain : Conjunction) (hdepth : chain.depth ≤ bound)
    (h : ∀ tree ∈ members, ∃ unary : Unary, unary.Derives (f tree) tree.settled bound) :
    ∃ longer : Conjunction,
      longer.tokens =
        chain.tokens ++ tokensOf ((members.map f).flatMap (.operator .and :: ·)) ∧
      longer.parts = chain.parts ++ members.map Tree.settled ∧ longer.depth ≤ bound := by
  -- Chains grow at their right end, so that the induction is on the operands still to come.
  induction members generalizing chain with
  | nil => exact ⟨chain, (List.append_nil _).symm, (List.append_nil _).symm, hdepth⟩
  | cons tree trees ih =>
    obtain ⟨⟨unary, hunary⟩, htrees⟩ := List.forall_mem_cons.1 h
    obtain ⟨longer, htokens, hparts, hlonger⟩ :=
      ih (.joined chain ⟨⟨.and, ['&'], 0⟩, rfl⟩ unary) (Nat.max_le.2 ⟨hdepth, hunary.depth⟩) htrees
    refine ⟨longer, ?_, ?_, hlonger⟩
    · rw [htokens, Conjunction.tokens, hunary.tokens, List.map_cons, List.flatMap_cons,
        tokensOf_append, List.append_assoc]
      rfl
    · rw [hparts, Conjunction.parts, hunary.tree, List.append_assoc]
      rfl

/-- Operands with a sign between each two are a chain. -/
theorem Conjunction.exists_derives_chained (htwo : 2 ≤ members.length)
    (h : ∀ tree ∈ members, ∃ unary : Unary, unary.Derives (f tree) tree.settled bound) :
    ∃ chain : Conjunction, chain.Derives (chained .and (members.map f))
      (Tree.conjunction (members.map Tree.settled)) bound := by
  cases members with
  | nil => exact absurd htwo (Nat.not_succ_le_zero 1)
  | cons tree trees =>
    obtain ⟨⟨unary, hunary⟩, htrees⟩ := List.forall_mem_cons.1 h
    obtain ⟨chain, htokens, hparts, hdepth⟩ :=
      Conjunction.exists_longer (.single unary) hunary.depth htrees
    refine ⟨chain, ?_, ?_, hdepth⟩
    · rw [htokens, Conjunction.tokens, hunary.tokens, List.map_cons, chained_cons, tokensOf_append]
    · rw [hparts, Conjunction.parts, hunary.tree]
      rfl

/-- A chain of conjunctions goes on with more of them, each after a sign. -/
theorem Disjunction.exists_longer (chain : Disjunction) (hdepth : chain.depth ≤ bound)
    (h : ∀ tree ∈ members, ∃ disjunct : Conjunction,
      disjunct.Derives (f tree) tree.settled bound) :
    ∃ longer : Disjunction,
      longer.tokens =
        chain.tokens ++ tokensOf ((members.map f).flatMap (.operator .or :: ·)) ∧
      longer.parts = chain.parts ++ members.map Tree.settled ∧ longer.depth ≤ bound := by
  induction members generalizing chain with
  | nil => exact ⟨chain, (List.append_nil _).symm, (List.append_nil _).symm, hdepth⟩
  | cons tree trees ih =>
    obtain ⟨⟨disjunct, hdisjunct⟩, htrees⟩ := List.forall_mem_cons.1 h
    obtain ⟨longer, htokens, hparts, hlonger⟩ :=
      ih (.joined chain ⟨⟨.or, ['|'], 0⟩, rfl⟩ disjunct)
        (Nat.max_le.2 ⟨hdepth, hdisjunct.depth⟩) htrees
    refine ⟨longer, ?_, ?_, hlonger⟩
    · rw [htokens, Disjunction.tokens, hdisjunct.tokens, List.map_cons, List.flatMap_cons,
        tokensOf_append, List.append_assoc]
      rfl
    · rw [hparts, Disjunction.parts, hdisjunct.tree, List.append_assoc]
      rfl

/-- Conjunctions with a sign between each two are a query. -/
theorem Disjunction.exists_derives_chained (htwo : 2 ≤ members.length)
    (h : ∀ tree ∈ members, ∃ disjunct : Conjunction,
      disjunct.Derives (f tree) tree.settled bound) :
    ∃ query : Disjunction, query.Derives (chained .or (members.map f))
      (Tree.disjunction (members.map Tree.settled)) bound := by
  cases members with
  | nil => exact absurd htwo (Nat.not_succ_le_zero 1)
  | cons tree trees =>
    obtain ⟨⟨disjunct, hdisjunct⟩, htrees⟩ := List.forall_mem_cons.1 h
    obtain ⟨query, htokens, hparts, hdepth⟩ :=
      Disjunction.exists_longer (.single disjunct) hdisjunct.depth htrees
    refine ⟨query, ?_, ?_, hdepth⟩
    · rw [htokens, Disjunction.tokens, hdisjunct.tokens, List.map_cons, chained_cons,
        tokensOf_append]
    · rw [Disjunction.tree, hparts, Disjunction.parts, hdisjunct.tree]
      rfl

end Chains

end Grammar

namespace Tree

open Notation Grammar

/-- A node stays a node when its double negations are taken away. -/
theorem isNot_settled_of_isCompound {tree : Tree} (h : tree.isCompound = true) :
    tree.settled.isNot = false := by
  cases tree with
  | and operands => rw [settled]; rfl
  | or operands => rw [settled]; rfl
  | _ => cases h

/-- The symbols of a tree have a derivation that stands for the settled tree: as a unary unless the
tree is a node, as a chain of operands unless it is a disjunction, and as a query in any case. -/
structure IsDerivable (tree : Tree) : Prop where
  unary : tree.isCompound = false →
    ∃ unary : Unary, unary.Derives tree.symbols tree.settled tree.depth
  chain : tree.isOr = false →
    ∃ chain : Conjunction, chain.Derives tree.symbols tree.settled tree.depth
  query : ∃ query : Disjunction, query.Derives tree.symbols tree.settled tree.depth

namespace IsDerivable

variable {tree : Tree} {operands : List Tree}

/-- A unary that stands for the settled tree is a chain and a query, too. -/
theorem of_unary (hcanonical : tree.settled.IsCanonical)
    (h : ∃ unary : Unary, unary.Derives tree.symbols tree.settled tree.depth) :
    tree.IsDerivable := by
  obtain ⟨unary, hunary⟩ := h
  obtain ⟨chain, hchain⟩ := hunary.single hcanonical
  exact ⟨fun _ => ⟨unary, hunary⟩, fun _ => ⟨chain, hchain⟩, hchain.single hcanonical⟩

/-- A word that stands for itself is derivable. -/
theorem term {word : Text} (h : Query.wordKind? word = some .word) :
    (Tree.term word).IsDerivable := by
  refine of_unary ?_ ?_
  · rw [settled]
    exact .term word
  · rw [symbols, settled, depth]
    exact Unary.exists_derives_word h

/-- The negation of a derivable tree is derivable, in parentheses if the tree is a node. -/
theorem not (h : tree.IsDerivable) (hcanonical : (Tree.not tree).settled.IsCanonical) :
    (Tree.not tree).IsDerivable := by
  refine of_unary hcanonical ?_
  rw [symbols, settled, depth]
  cases hcompound : tree.isCompound with
  | true =>
    obtain ⟨query, hquery⟩ := h.query
    obtain ⟨unary, hgroup⟩ := hquery.group (isNot_settled_of_isCompound hcompound)
    exact hgroup.negation
  | false =>
    obtain ⟨unary, hunary⟩ := h.unary hcompound
    exact hunary.negation

/-- A derivable tree has a unary as it stands in a conjunction, in parentheses if it is a
disjunction. -/
theorem conjunct (h : tree.IsDerivable) (hflat : Connective.and.isNode tree = false) :
    ∃ unary : Unary, unary.Derives (if tree.isOr then enclosed tree.symbols else tree.symbols)
      tree.settled (Connective.and.memberDepth tree) := by
  rw [Connective.memberDepth]
  cases tree with
  | and trees => cases hflat
  | or trees =>
    obtain ⟨query, hquery⟩ := h.query
    exact hquery.group (isNot_settled_of_isCompound rfl)
  | _ => exact h.unary rfl

/-- A conjunction of derivable trees is derivable. -/
theorem and (h : ∀ tree ∈ operands, tree.IsDerivable)
    (hcanonical : (Tree.and operands).IsCanonical) : (Tree.and operands).IsDerivable := by
  obtain ⟨htwo, hoperands⟩ := (Connective.and.isCanonical_node_iff operands).1 hcanonical
  have hbound := (Connective.depth_node_le_iff (c := .and)).1
    (Nat.le_refl (Tree.and operands).depth)
  have hmembers : ∀ tree ∈ operands, ∃ unary : Unary,
      unary.Derives (if tree.isOr then enclosed tree.symbols else tree.symbols) tree.settled
        (Tree.and operands).depth := by
    intro tree htree
    obtain ⟨unary, hunary⟩ := (h tree htree).conjunct (hoperands tree htree).2
    exact ⟨unary, hunary.mono (hbound tree htree)⟩
  obtain ⟨chain, hchain⟩ := Conjunction.exists_derives_chained htwo hmembers
  have htree : (Tree.and operands).settled = Tree.conjunction (operands.map settled) :=
    Connective.and.settled_node_eq_combine htwo fun tree htree =>
      isCanonical_settled (hoperands tree htree).1
  rw [← htree, ← conjunctSymbols_eq_map, ← symbols] at hchain
  refine ⟨fun hunary => ?_, fun _ => ⟨chain, hchain⟩, ?_⟩
  · cases hunary
  · exact hchain.single (isCanonical_settled hcanonical)

/-- A disjunction of derivable trees is derivable. -/
theorem or (h : ∀ tree ∈ operands, tree.IsDerivable)
    (hcanonical : (Tree.or operands).IsCanonical) : (Tree.or operands).IsDerivable := by
  obtain ⟨htwo, hoperands⟩ := (Connective.or.isCanonical_node_iff operands).1 hcanonical
  have hbound := (Connective.depth_node_le_iff (c := .or)).1 (Nat.le_refl (Tree.or operands).depth)
  have hmembers : ∀ tree ∈ operands, ∃ chain : Conjunction,
      chain.Derives tree.symbols tree.settled (Tree.or operands).depth := by
    intro tree htree
    have hor : tree.isOr = false := by
      cases tree with
      | or trees => cases (hoperands _ htree).2
      | _ => rfl
    obtain ⟨chain, hchain⟩ := (h tree htree).chain hor
    exact ⟨chain, hchain.mono (hbound tree htree)⟩
  obtain ⟨query, hquery⟩ := Disjunction.exists_derives_chained htwo hmembers
  have htree : (Tree.or operands).settled = Tree.disjunction (operands.map settled) :=
    Connective.or.settled_node_eq_combine htwo fun tree htree =>
      isCanonical_settled (hoperands tree htree).1
  rw [← htree, ← disjunctSymbols_eq_map, ← symbols] at hquery
  refine ⟨fun hunary => ?_, fun hchain => ?_, query, hquery⟩
  · cases hunary
  · cases hchain

end IsDerivable

/-- Every leaf is a word that stands for itself in a query. -/
def HasWordLeaves (tree : Tree) : Prop :=
  ∀ leaf ∈ tree.leaves, ∃ word, leaf = term word ∧ Query.wordKind? word = some .word

/-- A canonical tree over words that stand for themselves is derivable. -/
theorem isDerivable {tree : Tree} (hcanonical : tree.IsCanonical) (hleaf : tree.HasWordLeaves) :
    tree.IsDerivable := by
  induction tree using Tree.induct with
  | term word =>
    obtain ⟨spelled, hterm, hkind⟩ := hleaf (term word) (by rw [leaves_term]; exact .head _)
    cases hterm
    exact .term hkind
  | phrase words =>
    obtain ⟨spelled, hterm, -⟩ := hleaf (phrase words) (by rw [leaves_phrase]; exact .head _)
    cases hterm
  | not operand ih =>
    have hsettled := isCanonical_settled hcanonical
    rw [HasWordLeaves, leaves_not] at hleaf
    cases hcanonical with
    | not canonical => exact (ih canonical hleaf).not hsettled
  | and operands ih =>
    obtain ⟨-, hoperands⟩ := (Connective.and.isCanonical_node_iff operands).1 hcanonical
    rw [HasWordLeaves, leaves_and, List.forall_mem_flatMap] at hleaf
    exact .and (fun tree htree => ih tree htree (hoperands tree htree).1 (hleaf tree htree))
      hcanonical
  | or operands ih =>
    obtain ⟨-, hoperands⟩ := (Connective.or.isCanonical_node_iff operands).1 hcanonical
    rw [HasWordLeaves, leaves_or, List.forall_mem_flatMap] at hleaf
    exact .or (fun tree htree => ih tree htree (hoperands tree htree).1 (hleaf tree htree))
      hcanonical

/-- Reading the symbols of a tree as tokens of a query gives the settled tree, if groups can be
opened as deep as the tree nests. -/
theorem ofTokens?_symbols {tree : Tree} (hcanonical : tree.IsCanonical)
    (hleaf : tree.HasWordLeaves) (hdepth : tree.depth ≤ maxDepth) :
    ofTokens? (tokensOf tree.symbols) = some tree.settled := by
  obtain ⟨query, hquery⟩ := (isDerivable hcanonical hleaf).query
  rw [← hquery.tokens, query.ofTokens?_tokens (Nat.le_trans hquery.depth hdepth), hquery.tree]

end Tree

end TsQuery
