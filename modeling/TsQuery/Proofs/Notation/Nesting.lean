import TsQuery.Proofs.Notation.Symbols
import TsQuery.Proofs.Tree.Depth

/-!
# How deep the parentheses of a text nest

`Notation.nesting` is the most parentheses of a text that are open at once
(`Notation.nesting_le_iff`).  The text of a tree nests as deep as the tree says
(`Tree.nesting_render`): a part of it that opens and closes its own parentheses nests by itself,
whatever comes after it (`Notation.Nests`).
-/

namespace TsQuery

namespace Notation

/-- How many parentheses are open at once, at most. -/
def nesting : Text → Nat
  | [] => 0
  | '(' :: text => nesting text + 1
  | ')' :: text => nesting text - 1
  | _ :: text => nesting text

theorem nesting_cons {c : CodePoint} (hopening : c ≠ '(') (hclosing : c ≠ ')') (text : Text) :
    nesting (c :: text) = nesting text := by
  rw [nesting]
  · exact hopening
  · exact hclosing

/-- A text nests no deeper than a bound exactly if nowhere in it more parentheses than that are
open. -/
theorem nesting_le_iff {text : Text} {bound : Nat} :
    nesting text ≤ bound ↔
      ∀ before, before <+: text → before.count (.char '(') ≤ before.count (.char ')') + bound := by
  have hcons (c : CodePoint) (text : Text) (bound : Nat) :
      (∀ before, before <+: c :: text →
          before.count (.char '(') ≤ before.count (.char ')') + bound) ↔
        ∀ before, before <+: text →
          (c :: before).count (.char '(') ≤ (c :: before).count (.char ')') + bound := by
    constructor
    · exact fun h before hbefore => h _ (List.cons_prefix_cons.2 ⟨rfl, hbefore⟩)
    · intro h before hbefore
      rcases List.prefix_cons_iff.1 hbefore with rfl | ⟨rest, rfl, hrest⟩
      · exact Nat.zero_le _
      · exact h rest hrest
  fun_induction nesting text generalizing bound with
  | case1 =>
    refine iff_of_true (Nat.zero_le bound) fun before hbefore => ?_
    rw [List.prefix_nil.1 hbefore]
    exact Nat.zero_le _
  | case2 text ih =>
    rw [hcons]
    cases bound with
    | zero =>
      refine iff_of_false (Nat.not_succ_le_zero _) fun h => ?_
      exact absurd (h [] (List.nil_prefix)) (by decide)
    | succ bound =>
      rw [Nat.add_le_add_iff_right]
      refine ih.trans (forall₂_congr fun before _ => ?_)
      rw [List.count_cons_self, List.count_cons_of_ne (by decide)]
      omega
  | case3 text ih =>
    rw [hcons, Nat.sub_le_iff_le_add]
    refine ih.trans (forall₂_congr fun before _ => ?_)
    rw [List.count_cons_self, List.count_cons_of_ne (by decide)]
    omega
  | case4 c text hopening hclosing ih =>
    rw [hcons]
    refine ih.trans (forall₂_congr fun before _ => ?_)
    rw [List.count_cons_of_ne hopening, List.count_cons_of_ne hclosing]

/-- Whether a text is free of parentheses. -/
def HasNoParentheses (text : Text) : Prop :=
  ∀ c ∈ text, c ≠ '(' ∧ c ≠ ')'

instance (text : Text) : Decidable (HasNoParentheses text) :=
  inferInstanceAs (Decidable (∀ c ∈ text, c ≠ '(' ∧ c ≠ ')'))

/-- The characters of operands are no parentheses. -/
theorem IsOperandWord.hasNoParentheses {word : Text} (h : IsOperandWord word) :
    HasNoParentheses word := by
  refine fun c hc => ⟨?_, ?_⟩
  · rintro rfl
    exact absurd (h.2 _ hc) (by decide)
  · rintro rfl
    exact absurd (h.2 _ hc) (by decide)

/-! ### Parts of a text -/

/-- A text opens and closes its own parentheses and nests them to a depth. -/
def Nests (text : Text) (depth : Nat) : Prop :=
  ∀ rest, nesting (text ++ rest) = max depth (nesting rest)

namespace Nests

/-- A text without parentheses does not nest. -/
theorem flat {text : Text} (h : HasNoParentheses text) : Nests text 0 := by
  intro rest
  rw [Nat.zero_max]
  induction text with
  | nil => rfl
  | cons c text ih =>
    obtain ⟨⟨hopening, hclosing⟩, htext⟩ := List.forall_mem_cons.1 h
    rw [List.cons_append, nesting_cons hopening hclosing, ih htext]

/-- Texts one after another nest as deep as the deepest of them. -/
theorem append {left right : Text} {leftDepth rightDepth : Nat} (hleft : Nests left leftDepth)
    (hright : Nests right rightDepth) : Nests (left ++ right) (max leftDepth rightDepth) := by
  intro rest
  rw [List.append_assoc, hleft, hright, Nat.max_assoc]

/-- Texts with a separator between each two nest as deep as the deepest of them. -/
theorem joined {separator : Text} (hseparator : Nests separator 0) {α : Type} {members : List α}
    {f : α → Text} {g : α → Nat} (h : ∀ member ∈ members, Nests (f member) (g member)) :
    Nests (Text.joined separator (members.map f)) (Tree.deepest (members.map g)) := by
  induction members with
  | nil => exact flat nofun
  | cons member members ih =>
    obtain ⟨hmember, hmembers⟩ := List.forall_mem_cons.1 h
    cases members with
    | nil =>
      have hdepth : Tree.deepest [g member] = g member := Nat.max_zero _
      rw [Text.joined, List.map_singleton, List.map_singleton, List.intercalate_singleton, hdepth]
      exact hmember
    | cons next more =>
      have hrest := (hmember.append hseparator).append (ih hmembers)
      rw [Nat.max_zero] at hrest
      rw [Text.joined, List.map_cons, List.map_cons, List.intercalate_cons_cons]
      exact hrest

/-- Parentheses around a text make it nest one deeper. -/
theorem grouped {text : Text} {depth : Nat} (h : Nests text depth) :
    Nests (Tree.grouped text) (depth + 1) := by
  intro rest
  -- The closing parenthesis takes one from what nests after it, and the opening one puts it back.
  have hopening : nesting (Tree.grouped text ++ rest) =
      nesting (text ++ (.char ' ' :: .char ')' :: rest)) + 1 := by
    rw [Tree.grouped, List.append_assoc, List.append_assoc]
    rfl
  have hclosing : nesting (.char ' ' :: .char ')' :: rest) = nesting rest - 1 := rfl
  rw [hopening, h, hclosing]
  omega

end Nests

end Notation

namespace Tree

open Notation

/-- The text of a tree opens and closes its own parentheses and nests as deep as the tree says, if
its words have none. -/
theorem nests_render {tree : Tree} (h : ∀ word ∈ tree.words, HasNoParentheses word) :
    Nests tree.render tree.depth := by
  induction tree using Tree.induct with
  | term word =>
    rw [render, depth]
    exact .flat (h word (by rw [words_term]; exact List.mem_singleton_self word))
  | phrase words =>
    rw [words_phrase] at h
    have hseparator : Nests [' ', '<', '-', '>', ' '] 0 := .flat (by decide)
    have hjoined := Nests.joined hseparator (f := id) (g := fun _ => 0)
      fun word hmem => .flat (h word hmem)
    have hdepth : deepest (words.map fun _ => 0) = 0 :=
      Nat.le_zero.1 (deepest_le_iff.2 (List.forall_mem_map.2 fun _ _ => Nat.le_refl 0))
    rw [List.map_id, hdepth] at hjoined
    rw [render, depth]
    exact hjoined.grouped
  | not operand ih =>
    rw [words_not] at h
    have hsign : Nests ['!'] 0 := .flat (by decide)
    have hrest : Nests (if operand.isCompound then grouped operand.render else operand.render)
        (not operand).depth := by
      rw [depth]
      split
      · exact (ih h).grouped
      · exact ih h
    have happend := hsign.append hrest
    rw [Nat.zero_max] at happend
    rw [render]
    exact happend
  | and operands ih =>
    rw [words_and, List.forall_mem_flatMap] at h
    have hseparator : Nests [' ', '&', ' '] 0 := .flat (by decide)
    rw [render, renderConjuncts_eq_map]
    refine (Connective.and.depth_node operands).symm ▸ Nests.joined hseparator fun tree htree => ?_
    rw [Connective.memberDepth]
    split
    · exact (ih tree htree (h tree htree)).grouped
    · exact ih tree htree (h tree htree)
  | or operands ih =>
    rw [words_or, List.forall_mem_flatMap] at h
    have hseparator : Nests [' ', '|', ' '] 0 := .flat (by decide)
    rw [render, renderDisjuncts_eq_map]
    exact (Connective.or.depth_node operands).symm ▸ Nests.joined hseparator fun tree htree =>
      ih tree htree (h tree htree)

/-- The parentheses of the text of a tree whose words have none nest as deep as the tree says. -/
theorem nesting_render_of_hasNoParentheses {tree : Tree}
    (h : ∀ word ∈ tree.words, HasNoParentheses word) : nesting tree.render = tree.depth := by
  have hnests := nests_render h []
  rwa [List.append_nil, nesting, Nat.max_zero] at hnests

/-- The parentheses of the text of a tree over operands nest as deep as the tree says. -/
theorem nesting_render {tree : Tree} (h : ∀ word ∈ tree.words, IsOperandWord word) :
    nesting tree.render = tree.depth :=
  nesting_render_of_hasNoParentheses fun word hword => (h word hword).hasNoParentheses

end Tree

end TsQuery
