import Mathlib
import TsQuery.Proofs.Notation.Pieces
import TsQuery.Proofs.Scan.Clean

/-!
# The shape of a compiled text

A compiled text is made of operators, parentheses and words, negation signs right before what they
negate, and one blank between each two of them.  A word or an opening parenthesis has at most one
sign exactly if no negation of the tree stands directly under another one
(`Query.compile_shape`).  The signs of one run cancel out when they are read, and so do not the sign
before a group and the one inside, so that some queries compile to a text with two signs in a row
(`Query.not_forall_single_signs`).
-/

namespace TsQuery

namespace Notation

/-- The shape of a compiled text of which the pieces have allowed numbers of negation signs. -/
structure HasShape (allowed : Nat → Prop) (text : Text) : Prop where
  spaced : Text.joined [.char ' '] text.pieces = text
  balanced : text.count (.char '(') = text.count (.char ')')
  pieces : ∀ piece ∈ text.pieces, ∃ signs, allowed signs ∧ HasSigns signs piece

/-- The empty text has every shape. -/
theorem HasShape.nil (allowed : Nat → Prop) : HasShape allowed [] :=
  ⟨rfl, rfl, nofun⟩

end Notation

namespace Tree

/-- The text of a tree has its shape but for the number of signs, and at most one sign before each
word and parenthesis exactly if the tree has no double negations. -/
theorem IsClean.hasShape_render {tree : Tree} (h : tree.IsClean) :
    Notation.HasShape (fun _ => True) tree.render ∧
      (Notation.HasShape (· ≤ 1) tree.render ↔ tree.HasSingleNegations) := by
  have hnegatable : ∀ word ∈ tree.words, Notation.IsNegatable word := by
    intro word hmem
    refine Or.inr ⟨h.isOperandWord word hmem, fun hquote => ?_⟩
    exact absurd ((h.word word hmem).isWordChar _ hquote) (by decide)
  have hpieces : tree.render.pieces = tree.pieces :=
    pieces_render h.canonical h.two_le_of_phrase hnegatable
  have hshape {allowed : Nat → Prop}
      (hsigns : ∀ piece ∈ tree.pieces, ∃ signs, allowed signs ∧ Notation.HasSigns signs piece) :
      Notation.HasShape allowed tree.render := {
    spaced := by rw [hpieces, (joined_pieces h.canonical h.two_le_of_phrase).2]
    balanced := count_render h.isOperandWord
    pieces := by rwa [hpieces] }
  constructor
  · refine hshape fun piece hpiece => ?_
    obtain ⟨signs, hsigns, -⟩ := hasSignsIf_of_mem_pieces hnegatable piece hpiece
    exact ⟨signs, trivial, hsigns⟩
  · rw [← forall_hasSigns_iff hnegatable]
    constructor
    · intro hrender
      rw [← hpieces]
      exact hrender.pieces
    · exact hshape

end Tree

namespace Query

/-- The text that a query compiles to has its shape but for the number of signs, and at most one
sign before each word and parenthesis exactly if the tree has no double negations. -/
theorem hasShape_compileText (text : Text) :
    Notation.HasShape (fun _ => True) (compileText (clean text)) ∧
      (Notation.HasShape (· ≤ 1) (compileText (clean text)) ↔
        ∀ tree ∈ tree? (clean text), tree.HasSingleNegations) := by
  rw [compileText]
  cases htree : tree? (clean text) with
  | none => exact ⟨.nil _, iff_of_true (.nil _) nofun⟩
  | some tree =>
    have hshape := (isClean_tree? htree).hasShape_render
    refine ⟨hshape.1, hshape.2.trans ?_⟩
    simp only [Option.mem_def, Option.some.injEq, forall_eq']

/-- A query that is accepted compiles to a text of which the pieces stand one blank apart, each of
them a sign, or negation signs and a parenthesis or word, and as many parentheses are closed as are
opened.  No negation sign follows another one exactly if none of the tree stands directly under
another one. -/
theorem compile_shape {limit : Int} {value : Json} {text : Text}
    (h : accept limit value = .ok text) :
    ∃ compiled, compile limit value = .ok compiled ∧
      Notation.HasShape (fun _ => True) compiled.text ∧
      (Notation.HasShape (· ≤ 1) compiled.text ↔
        ∀ tree ∈ tree? (clean text), tree.HasSingleNegations) := by
  refine ⟨compiled text, ?_, hasShape_compileText text⟩
  rw [compile, h]
  rfl

set_option maxRecDepth 4000 in
/-- The negation of a negated disjunction keeps both of its signs, since a parenthesis stands
between them. -/
theorem compile_shape_of_negated_group :
    ∃ compiled, compile 1000 (.string "!(!(a | \"b c\"))") = .ok compiled ∧
      Notation.HasShape (fun _ => True) compiled.text ∧
      (Notation.HasShape (· ≤ 1) compiled.text ↔
        (Tree.not (.not (.or [.term "a", .phrase ["b", "c"]]))).HasSingleNegations) := by
  have htree : tree? (clean "!(!(a | \"b c\"))") =
      some (.not (.not (.or [.term "a", .phrase ["b", "c"]]))) := by cbv
  have haccept : accept 1000 (.string "!(!(a | \"b c\"))") = .ok "!(!(a | \"b c\"))" := rfl
  have hshape := compile_shape haccept
  simpa only [htree, Option.mem_def, Option.some.injEq, forall_eq'] using hshape

set_option maxRecDepth 4000 in
/-- A query can compile to a text with two negation signs in a row: the sign of a group and the one
inside are not of one run. -/
theorem not_forall_single_signs :
    ¬∀ (limit : Int) (value : Json) (text : Text), accept limit value = .ok text →
      ∃ compiled, compile limit value = .ok compiled ∧
        Notation.HasShape (· ≤ 1) compiled.text := by
  intro hall
  obtain ⟨compiled, hcompile, hshape⟩ := hall 1000 (.string "!(!a)") "!(!a)" rfl
  have htree : tree? (clean "!(!a)") = some (.not (.not (.term "a"))) := by cbv
  have htext : compiled.text = "!!a" := by
    have heq : Query.compiled "!(!a)" = compiled := Except.ok.inj hcompile
    rw [← heq, Query.compiled, compileText, htree]
    rfl
  have hpieces : Text.pieces "!!a" = ["!!a"] := by decide
  rw [htext] at hshape
  have hmem : ("!!a" : Text) ∈ Text.pieces "!!a" := by
    rw [hpieces]
    exact List.mem_singleton_self _
  obtain ⟨signs, hle, hsigns⟩ := hshape.pieces "!!a" hmem
  exact Notation.not_hasSigns_of_two hle "a" hsigns

end Query

end TsQuery
