import Mathlib
import TsQuery.Proofs.Notation.RoundTrip
import TsQuery.Proofs.Scan.Clean

/-!
# What a compiled query denotes

The text that a query is compiled to, read back by the grammar of its own notation, is the tree that
the query was read as.  Three facts meet here: the tree is canonical, whatever tokens it comes from;
its words hold nothing that the notation reads as an operator; and a canonical tree over such words
is what its text is read as.
-/

namespace TsQuery

namespace Query

/-- The text of a clean query is read as its tree. -/
theorem read?_compileText (text : Text) :
    Notation.read? (compileText (clean text)) = some (tree? (clean text)) := by
  rw [compileText]
  cases htree : tree? (clean text) with
  | none => rfl
  | some tree =>
    have hclean : tree.IsClean := isClean_tree? htree
    exact Tree.read?_render hclean.canonical hclean.two_le_of_phrase hclean.isOperandWord

/-- A query that is accepted compiles, and what it compiles to denotes the tree of the query and
nothing else: no word of it is read as an operator, and no parenthesis changes the meaning. -/
theorem compile_denotes_tree {limit : Int} {value : Json} {text : Text}
    (h : accept limit value = .ok text) :
    ∃ compiled, compile limit value = .ok compiled ∧
      Notation.read? compiled.text = some (tree? (clean text)) := by
  refine ⟨compiled text, ?_, read?_compileText text⟩
  rw [compile, h]
  rfl

set_option maxRecDepth 4000 in
/-- Signs of the notation stand inside a word and a phrase here, and a parenthesis closes
no group. -/
theorem compile_denotes_tree_of_signs_in_words :
    ∃ compiled, compile 1000 (.string "!(a<b \"c|d\"))e") = .ok compiled ∧
      Notation.read? compiled.text =
        some (some (.and [.not (.and [.term "a", .term "b", .phrase ["c", "d"]]), .term "e"])) := by
  have htree : tree? (clean "!(a<b \"c|d\"))e") =
      some (.and [.not (.and [.term "a", .term "b", .phrase ["c", "d"]]), .term "e"]) := by cbv
  rw [← htree]
  exact compile_denotes_tree rfl

end Query

end TsQuery
