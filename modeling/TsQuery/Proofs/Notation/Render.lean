import TsQuery.Proofs.Notation.Symbols
import TsQuery.Proofs.Text.Pieces
import TsQuery.Query.Scan

/-!
# What holds of every rendered tree

A property of texts that holds of the words of a tree and of the signs between them, and that
putting texts one after another and putting one into parentheses keep, holds of the text of the tree
(`Tree.render_induction`).  So the text holds nothing but words, signs and blanks
(`Tree.forall_mem_render`), and as many parentheses are closed as are opened
(`Tree.count_render`).
-/

namespace TsQuery

namespace Tree

/-- A property of texts that holds of the text of every tree, if it holds of the words of
the tree. -/
theorem render_induction {P : Text → Prop} (nil : P [])
    (append : ∀ left right, P left → P right → P (left ++ right))
    (grouped : ∀ text, P text → P (grouped text))
    (signs : P ['!'] ∧ P [' ', '&', ' '] ∧ P [' ', '|', ' '] ∧ P [' ', '<', '-', '>', ' '])
    {tree : Tree} (h : ∀ word ∈ tree.words, P word) : P tree.render := by
  obtain ⟨hnot, hand, hor, hfollowed⟩ := signs
  induction tree using Tree.induct with
  | term word =>
    rw [render]
    exact h word (by rw [words_term]; exact List.mem_singleton_self word)
  | phrase words =>
    rw [render]
    rw [words_phrase] at h
    exact grouped _ (Text.joined_induction nil append hfollowed h)
  | not operand ih =>
    rw [render]
    rw [words_not] at h
    have hoperand : P (if operand.isCompound then Tree.grouped operand.render
        else operand.render) := by
      split
      · exact grouped _ (ih h)
      · exact ih h
    exact append ['!'] _ hnot hoperand
  | and operands ih =>
    rw [render, renderConjuncts_eq_map]
    rw [words_and, List.forall_mem_flatMap] at h
    refine Text.joined_induction nil append hand (List.forall_mem_map.2 fun tree htree => ?_)
    have htext := ih tree htree (h tree htree)
    split
    · exact grouped _ htext
    · exact htext
  | or operands ih =>
    rw [render, renderDisjuncts_eq_map]
    rw [words_or, List.forall_mem_flatMap] at h
    exact Text.joined_induction nil append hor
      (List.forall_mem_map.2 fun tree htree => ih tree htree (h tree htree))

/-- The characters that the text of a tree has besides those of its words. -/
def renderSigns : Text :=
  [' ', '&', '|', '!', '(', ')', '<', '-', '>']

/-- The characters of the text of a tree are those of its words, operators and blanks. -/
theorem forall_mem_render {P : CodePoint → Prop} (hsigns : ∀ c ∈ renderSigns, P c) {tree : Tree}
    (hwords : ∀ word ∈ tree.words, ∀ c ∈ word, P c) : ∀ c ∈ tree.render, P c := by
  have hpart (text : Text) (h : text ⊆ renderSigns) : ∀ c ∈ text, P c := fun c hc => hsigns c (h hc)
  refine render_induction (P := fun text => ∀ c ∈ text, P c) nofun ?_ ?_ ?_ hwords
  · intro left right hleft hright
    exact List.forall_mem_append.2 ⟨hleft, hright⟩
  · intro text htext
    refine List.forall_mem_append.2 ⟨List.forall_mem_append.2 ⟨?_, htext⟩, ?_⟩
    · exact hpart _ (by decide)
    · exact hpart _ (by decide)
  · exact ⟨hpart _ (by decide), hpart _ (by decide), hpart _ (by decide), hpart _ (by decide)⟩

/-- The text of a tree closes as many parentheses as it opens, if its words have none. -/
theorem count_render {tree : Tree} (h : ∀ word ∈ tree.words, Notation.IsOperandWord word) :
    tree.render.count (.char '(') = tree.render.count (.char ')') := by
  refine render_induction (P := fun text => text.count (.char '(') = text.count (.char ')'))
    rfl ?_ ?_ ⟨rfl, rfl, rfl, rfl⟩ ?_
  · intro left right hleft hright
    rw [List.count_append, List.count_append, hleft, hright]
  · intro text htext
    rw [grouped, List.count_append, List.count_append, List.count_append, List.count_append, htext]
    change 1 + _ + 0 = 0 + _ + 1
    omega
  · intro word hword
    have hno (c : CodePoint) (hc : Notation.isOperandChar c = false) : word.count c = 0 := by
      rw [List.count_eq_zero]
      intro hmem
      rw [(h word hword).2 c hmem] at hc
      cases hc
    rw [hno _ (by decide), hno _ (by decide)]

end Tree

end TsQuery
