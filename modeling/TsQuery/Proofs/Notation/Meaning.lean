import TsQuery.Proofs.Notation.RoundTrip
import TsQuery.Proofs.Tree.Value

/-!
# What the text of any tree means

A tree need not be canonical to have a text.  If a node has a single operand or operands of its own
kind, or a phrase a single word, the text is read as another tree; but that tree has the same truth
value under every assignment (`Tree.read?_render_sameValue`), as long as no node and no phrase is
empty.

Rendering decides on parentheses by looking at an operand alone, and not at what is inside of it.
That is enough because of what stands outside of parentheses in the text of a tree: no disjunction
sign unless the tree is a disjunction, and no conjunction sign either unless it is a conjunction or
disjunction.  `Tree.HasItems` says so, together with the value that is read at each level.  Cutting
a chain at its operator cuts a member of the same kind, too, and the connective over all the parts
has the value of the connective over the members (`Notation.Means.chain`).
-/

namespace TsQuery

namespace Tree

/-- Two trees with the same truth value under every assignment. -/
def SameValue (left right : Tree) : Prop :=
  ∀ holds, left.value holds = right.value holds

/-- Every conjunction and disjunction in a tree has an operand and every phrase has a word. -/
inductive IsFilled : Tree → Prop
  | term (word : Text) : IsFilled (term word)
  | phrase {words : List Text} (nonempty : words ≠ []) : IsFilled (phrase words)
  | not {operand : Tree} (filled : IsFilled operand) : IsFilled (not operand)
  | and {operands : List Tree} (nonempty : operands ≠ [])
      (filled : ∀ tree ∈ operands, IsFilled tree) : IsFilled (and operands)
  | or {operands : List Tree} (nonempty : operands ≠ [])
      (filled : ∀ tree ∈ operands, IsFilled tree) : IsFilled (or operands)

end Tree

namespace Connective

/-- A connective over concatenated lists is the connective over its values on both of them. -/
theorem evaluate_append (c : Connective) (left right : List Bool) :
    c.evaluate (left ++ right) = c.evaluate [c.evaluate left, c.evaluate right] := by
  have hflat := c.evaluate_flatMap id [left, right]
  simpa only [List.flatMap_cons, List.flatMap_nil, List.append_nil, List.map_cons, List.map_nil,
    id_eq] using hflat

end Connective

namespace Notation

/-! ### Chains -/

/-- A reader takes items for a tree with the value of a given tree. -/
def Means (reader : List Item → Option Tree) (items : List Item) (tree : Tree) : Prop :=
  ∃ read, reader items = some read ∧ read.SameValue tree

/-- A reader of chains that are joined by a connective. -/
def readNode (c : Connective) (operator : Operator) (member : List Item → Option Tree)
    (items : List Item) : Option Tree :=
  readChain operator member (fun trees => some (c.node trees)) items

section

variable {c : Connective} {operator : Operator} {member : List Item → Option Tree}

/-- Items mean what the connective over their parts means, be it one part or several. -/
theorem means_readNode_iff {items : List Item} {tree : Tree} :
    Means (readNode c operator member) items tree ↔
      ∃ parts, (items.splitOnP (Item.isOperator operator)).mapM member = some parts ∧
        ∀ holds, c.evaluate (parts.map (Tree.value holds)) = tree.value holds := by
  have hjoin (parts : List Tree)
      (hparts : (items.splitOnP (Item.isOperator operator)).mapM member = some parts) :
      ∃ read, readNode c operator member items = some read ∧
        ∀ holds, read.value holds = c.evaluate (parts.map (Tree.value holds)) := by
    rw [readNode, readChain, hparts, Option.bind_some]
    split
    · next single => exact ⟨single, rfl, fun holds => (c.evaluate_singleton _).symm⟩
    · exact ⟨_, rfl, fun holds => c.value_node holds _⟩
  constructor
  · rintro ⟨read, hread, hsame⟩
    obtain ⟨parts, hparts, -⟩ := Option.bind_eq_some_iff.1 hread
    obtain ⟨joined, hjoined, hvalue⟩ := hjoin parts hparts
    obtain rfl : joined = read := Option.some.inj (hjoined.symm.trans hread)
    exact ⟨parts, hparts, fun holds => (hvalue holds).symm.trans (hsame holds)⟩
  · rintro ⟨parts, hparts, hsame⟩
    obtain ⟨read, hread, hvalue⟩ := hjoin parts hparts
    exact ⟨read, hread, fun holds => (hvalue holds).trans (hsame holds)⟩

/-- A chain of members means the connective over what they mean, even if members are chains of the
same operator themselves. -/
theorem Means.chain {items : Tree → List Item} {trees : List Tree} (hne : trees ≠ [])
    (h : ∀ tree ∈ trees, Means (readNode c operator member) (items tree) tree) :
    Means (readNode c operator member) ([.operator operator].intercalate (trees.map items))
      (c.node trees) := by
  rw [means_readNode_iff]
  simp only [c.value_node]
  induction trees with
  | nil => exact absurd rfl hne
  | cons tree trees ih =>
    obtain ⟨htree, htrees⟩ := List.forall_mem_cons.1 h
    obtain ⟨parts, hparts, hvalue⟩ := means_readNode_iff.1 htree
    cases trees with
    | nil =>
      rw [List.map_singleton, List.intercalate_singleton]
      refine ⟨parts, hparts, fun holds => ?_⟩
      rw [hvalue, List.map_singleton, c.evaluate_singleton]
    | cons next more =>
      obtain ⟨rest, hrest, hrest_value⟩ := ih (List.cons_ne_nil next more) htrees
      refine ⟨parts ++ rest, ?_, fun holds => ?_⟩
      · have hoperator : (Item.operator operator).isOperator operator = true := decide_eq_true rfl
        rw [List.map_cons, List.map_cons, List.intercalate_cons_cons, List.append_assoc,
          List.singleton_append, List.splitOnP_append_cons _ _ hoperator, List.mapM_append, hparts,
          ← List.map_cons, hrest]
        rfl
      · have hcons := c.evaluate_append [tree.value holds] ((next :: more).map (Tree.value holds))
        rw [c.evaluate_singleton] at hcons
        rw [List.map_append, c.evaluate_append, hvalue, hrest_value, List.map_cons]
        exact hcons.symm

end

end Notation

/-! ### Items of any tree -/

namespace Tree

open Notation

/-- Items that the symbols of a tree leave once their parentheses are resolved, what operators there
are among them, and what they mean at each level at which the text of the tree can stand. -/
structure HasItems (tree : Tree) (items : List Item) : Prop where
  reads : ReadsAs tree.symbols items
  disjunction : Means readDisjunction items tree
  conjunction : tree.isOr = false →
    (∀ item ∈ items, item.isOperator .or = false) ∧ Means readConjunction items tree
  unary : tree.isCompound = false →
    (∀ operator, operator ≠ .not → ∀ item ∈ items, item.isOperator operator = false) ∧
      Means readUnary items tree

namespace HasItems

variable {tree : Tree} {items : List Item}

/-- What has no disjunction sign means as a disjunction what it means as a conjunction. -/
theorem of_conjunction (hcompound : tree.isCompound = true) (hreads : ReadsAs tree.symbols items)
    (hitems : ∀ item ∈ items, item.isOperator .or = false)
    (hmeans : Means readConjunction items tree) : HasItems tree items where
  reads := hreads
  disjunction := by
    obtain ⟨read, hread, hsame⟩ := hmeans
    exact ⟨read, by rw [readDisjunction, readChain_of_forall hitems, hread], hsame⟩
  conjunction _ := ⟨hitems, hmeans⟩
  unary h := absurd hcompound (by rw [h]; decide)

/-- What has no operator but negation signs means the same at all levels. -/
theorem of_unary (hreads : ReadsAs tree.symbols items)
    (hitems : ∀ operator, operator ≠ .not → ∀ item ∈ items, item.isOperator operator = false)
    (hmeans : Means readUnary items tree) : HasItems tree items := by
  obtain ⟨read, hread, hsame⟩ := hmeans
  have hno_or := hitems .or (by decide)
  have hconjunction : readConjunction items = some read := by
    rw [readConjunction, readChain_of_forall (hitems .and (by decide)), readPhrase,
      readChain_of_forall (hitems .followedBy (by decide)), hread]
  have hdisjunction : readDisjunction items = some read := by
    rw [readDisjunction, readChain_of_forall hno_or, hconjunction]
  exact {
    reads := hreads
    disjunction := ⟨read, hdisjunction, hsame⟩
    conjunction := fun _ => ⟨hno_or, read, hconjunction, hsame⟩
    unary := fun _ => ⟨hitems, read, hread, hsame⟩ }

/-- In parentheses, a tree is one operand. -/
theorem enclosed (h : HasItems tree items) :
    ∃ read, ReadsAs (enclosed tree.symbols) [.operand read] ∧ read.SameValue tree := by
  obtain ⟨read, hread, hsame⟩ := h.disjunction
  exact ⟨read, h.reads.enclosed hread, hsame⟩

/-- A negation is a sign before a single operand, or before what a negation or leaf leaves. -/
theorem not (h : HasItems tree items) : ∃ items, HasItems (not tree) items := by
  cases hcompound : tree.isCompound with
  | true =>
    obtain ⟨read, hreads, hsame⟩ := h.enclosed
    refine ⟨[.operator .not, .operand read], of_unary ?_ ?_ ?_⟩
    · rw [symbols, if_pos hcompound]
      exact .cons .not hreads
    · intro operator hoperator
      simpa [Item.isOperator] using hoperator.symm
    · exact ⟨.not read, rfl, fun holds => by rw [value, value, hsame]⟩
  | false =>
    obtain ⟨hitems, read, hread, hsame⟩ := h.unary hcompound
    refine ⟨.operator .not :: items, of_unary ?_ ?_ ?_⟩
    · rw [symbols, if_neg (by rw [hcompound]; decide)]
      exact .cons .not h.reads
    · intro operator hoperator
      exact List.forall_mem_cons.2 ⟨decide_eq_false hoperator.symm, hitems operator hoperator⟩
    · exact ⟨.not read, by rw [readUnary, hread]; rfl, fun holds => by rw [value, value, hsame]⟩

/-- In a conjunction, a tree leaves no disjunction sign, since a disjunction stands
in parentheses. -/
theorem conjunct (h : HasItems tree items) :
    ∃ items, ReadsAs (if tree.isOr then Notation.enclosed tree.symbols else tree.symbols) items ∧
      (∀ item ∈ items, item.isOperator .or = false) ∧ Means readConjunction items tree := by
  cases hor : tree.isOr with
  | true =>
    obtain ⟨read, hreads, hsame⟩ := h.enclosed
    exact ⟨[.operand read], hreads, by simp [Item.isOperator], read, rfl, hsame⟩
  | false => exact ⟨items, h.reads, h.conjunction hor⟩

end HasItems

/-- A phrase in parentheses is one operand, the phrase or the only word of it. -/
theorem readsAs_symbols_phrase {words : List Text} (hne : words ≠ []) :
    ∃ read, ReadsAs (phrase words).symbols [.operand read] ∧ read.SameValue (phrase words) := by
  have hreads : ReadsAs (chained .followedBy (words.map fun word => [.operand word]))
      ([.operator .followedBy].intercalate (words.map fun word => [.operand (term word)])) :=
    .chained .followedBy fun word _ => .operand word
  rw [symbols]
  rcases words with _ | ⟨word, _ | ⟨next, more⟩⟩
  · exact absurd rfl hne
  · exact ⟨term word, hreads.enclosed rfl, fun holds => by rw [value, value]⟩
  · refine ⟨_, hreads.enclosed (readDisjunction_phrase ?_), fun holds => rfl⟩
    exact Nat.le_add_left 2 more.length

/-- Every tree without an empty node leaves items that mean the tree. -/
theorem IsFilled.exists_hasItems {tree : Tree} (h : tree.IsFilled) :
    ∃ items, HasItems tree items := by
  induction h with
  | term word =>
    refine ⟨[.operand (.term word)], .of_unary ?_ ?_ ⟨.term word, rfl, fun holds => rfl⟩⟩
    · rw [symbols]
      exact .operand word
    · simp [Item.isOperator]
  | phrase nonempty =>
    obtain ⟨read, hreads, hsame⟩ := readsAs_symbols_phrase nonempty
    refine ⟨[.operand read], .of_unary hreads ?_ ⟨read, rfl, hsame⟩⟩
    simp [Item.isOperator]
  | not _ ih =>
    obtain ⟨items, hitems⟩ := ih
    exact hitems.not
  | @and operands nonempty _ ih =>
    have hconjuncts := fun tree htree => (ih tree htree).choose_spec.conjunct
    choose! items hreads hno_or hmeans using hconjuncts
    refine ⟨[.operator .and].intercalate (operands.map items), .of_conjunction rfl ?_ ?_ ?_⟩
    · rw [symbols, conjunctSymbols_eq_map]
      exact .chained .and hreads
    · intro item hitem
      rcases mem_intercalate hitem with rfl | ⟨member, hmember, hmem⟩
      · rfl
      · obtain ⟨tree, htree, rfl⟩ := List.mem_map.1 hmember
        exact hno_or tree htree item hmem
    · exact Means.chain (c := .and) nonempty hmeans
  | @or operands nonempty _ ih =>
    choose! items hitems using ih
    refine ⟨[.operator .or].intercalate (operands.map items), ?_, ?_, ?_, ?_⟩
    · rw [symbols, disjunctSymbols_eq_map]
      exact .chained .or fun tree htree => (hitems tree htree).reads
    · exact Means.chain (c := .or) nonempty fun tree htree => (hitems tree htree).disjunction
    -- A disjunction stands in parentheses wherever it is not read as one.
    · intro hnot_or
      cases hnot_or
    · intro hnot_compound
      cases hnot_compound

/-! ### The value of what is read -/

/-- The text of a tree is read as a tree with the same value under every assignment, if the tree has
no empty node and its words can be operands. -/
theorem read?_render_sameValue {tree : Tree} (hfilled : tree.IsFilled)
    (hword : ∀ word ∈ tree.words, IsOperandWord word) :
    ∃ read, read? tree.render = some (some read) ∧ read.SameValue tree := by
  obtain ⟨items, hitems⟩ := hfilled.exists_hasItems
  obtain ⟨read, hread, hsame⟩ := hitems.disjunction
  refine ⟨read, read?_render_of_readSymbols hword ?_, hsame⟩
  rw [hitems.reads.readSymbols_eq, hread]

/-- A tree with operands that stand alone, operands of the kind of their node, a phrase of one word
and two negations in a row. -/
def crowded : Tree :=
  .and [.and [.or [.or [.term "a", .and [.term "b"]]]],
    .not (.not (.and [.phrase ["c"], .phrase ["d", "e"]]))]

/-- The parentheses around a disjunction are kept by the conjunctions that it stands alone in. -/
theorem read?_render_sameValue_of_crowded :
    crowded.render = "( a | b ) & !!( ( c ) & ( d <-> e ) )" ∧
      ∃ read, read? crowded.render = some (some read) ∧ read.SameValue crowded := by
  have hsingle {tree : Tree} (h : tree.IsFilled) : ∀ operand ∈ [tree], operand.IsFilled :=
    List.forall_mem_singleton.2 h
  have hpair {left right : Tree} (hleft : left.IsFilled) (hright : right.IsFilled) :
      ∀ operand ∈ [left, right], operand.IsFilled :=
    List.forall_mem_cons.2 ⟨hleft, hsingle hright⟩
  have hleft : (and [.or [.or [.term "a", .and [.term "b"]]]]).IsFilled :=
    .and nofun (hsingle (.or nofun (hsingle
      (.or nofun (hpair (.term _) (.and nofun (hsingle (.term _))))))))
  have hright : (not (.not (.and [.phrase ["c"], .phrase ["d", "e"]]))).IsFilled :=
    .not (.not (.and nofun (hpair (.phrase nofun) (.phrase nofun))))
  have hword : ∀ word ∈ crowded.words, IsOperandWord word := by
    unfold IsOperandWord
    decide
  exact ⟨by decide, read?_render_sameValue (.and nofun (hpair hleft hright)) hword⟩

end Tree

end TsQuery
