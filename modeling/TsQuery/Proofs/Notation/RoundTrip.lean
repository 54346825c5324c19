import TsQuery.Proofs.Notation.Symbols
import TsQuery.Proofs.Tree.Canonical

/-!
# A rendered tree is read back

Once the parentheses in the text of a tree are resolved, what is left is `Tree.items`: the leaves
and operators that stand outside of them, a tree in place of every group.  Rendering puts a tree
into parentheses exactly where its loosest operator would otherwise be taken for one of the tree
around it, so cutting the items at an operator cuts them between operands and every canonical tree
is read from its items (`readDisjunction_items`).  With what is known of the symbols of a text,
every canonical tree is read from its text (`read?_render`).
-/

namespace TsQuery

namespace Notation

/-! ### Chains -/

/-- Cutting at an operator undoes joining by it, if no member has the operator. -/
theorem splitOnP_intercalate {operator : Operator} {members : List (List Item)} (hne : members ≠ [])
    (h : ∀ member ∈ members, ∀ item ∈ member, item.isOperator operator = false) :
    ([Item.operator operator].intercalate members).splitOnP (Item.isOperator operator) =
      members := by
  induction members with
  | nil => exact absurd rfl hne
  | cons member members ih =>
    obtain ⟨hmember, hmembers⟩ := List.forall_mem_cons.1 h
    cases members with
    | nil =>
      rw [List.intercalate_singleton]
      exact List.splitOnP_eq_singleton hmember
    | cons next more =>
      have hoperator : (Item.operator operator).isOperator operator = true := decide_eq_true rfl
      rw [List.intercalate_cons_cons, List.append_assoc, List.singleton_append,
        List.splitOnP_append_cons_of_forall_mem hmember _ hoperator,
        ih (List.cons_ne_nil next more) hmembers]

theorem mapM_eq_some {α β γ : Type} {f : α → β} {g : β → Option γ} {h : α → γ} {l : List α}
    (hread : ∀ x ∈ l, g (f x) = some (h x)) : (l.map f).mapM g = some (l.map h) := by
  induction l with
  | nil => rfl
  | cons x l ih =>
    obtain ⟨hx, hl⟩ := List.forall_mem_cons.1 hread
    rw [List.map_cons, List.mapM_cons, hx, ih hl]
    rfl

section

variable {operator : Operator} {member : List Item → Option Tree} {join : List Tree → Option Tree}

/-- Without the operator there is a single member, which stands for itself. -/
theorem readChain_of_forall {items : List Item}
    (h : ∀ item ∈ items, item.isOperator operator = false) :
    readChain operator member join items = member items := by
  rw [readChain, List.splitOnP_eq_singleton h, List.mapM_cons, List.mapM_nil]
  cases member items with
  | none => rfl
  | some tree => rfl

/-- A chain of two or more members is read by joining what its members are read as. -/
theorem readChain_intercalate {α : Type} {members : List α} {f : α → List Item} {g : α → Tree}
    (htwo : 2 ≤ members.length)
    (hitems : ∀ x ∈ members, ∀ item ∈ f x, item.isOperator operator = false)
    (hread : ∀ x ∈ members, member (f x) = some (g x)) :
    readChain operator member join ([.operator operator].intercalate (members.map f)) =
      join (members.map g) := by
  have hne : members.map f ≠ [] := by
    rw [ne_eq, List.map_eq_nil_iff]
    rintro rfl
    exact absurd htwo (Nat.not_succ_le_zero 1)
  have hsplit := splitOnP_intercalate hne (List.forall_mem_map.2 hitems)
  rw [readChain, hsplit, mapM_eq_some hread, Option.bind_some]
  split
  · next single hsingle =>
    have hlength := congrArg List.length hsingle
    rw [List.length_map, List.length_singleton] at hlength
    omega
  · rfl

end

/-! ### Items of a tree -/

end Notation

namespace Tree

open Notation

mutual

/-- What is left of the symbols of a tree once its parentheses are resolved. -/
def items : Tree → List Item
  | term word => [.operand (term word)]
  | phrase words => [.operand (phrase words)]
  | not operand =>
    .operator .not :: if operand.isCompound then [.operand operand] else operand.items
  | and operands => [.operator .and].intercalate (conjunctItems operands)
  | or operands => [.operator .or].intercalate (disjunctItems operands)

/-- The items of operands as they stand in a conjunction. -/
def conjunctItems : List Tree → List (List Item)
  | [] => []
  | tree :: trees => (if tree.isOr then [.operand tree] else tree.items) :: conjunctItems trees

/-- The items of operands as they stand in a disjunction. -/
def disjunctItems : List Tree → List (List Item)
  | [] => []
  | tree :: trees => tree.items :: disjunctItems trees

end

theorem conjunctItems_eq_map (trees : List Tree) :
    conjunctItems trees =
      trees.map fun tree => if tree.isOr then [.operand tree] else tree.items := by
  induction trees with
  | nil => rfl
  | cons tree trees ih => rw [conjunctItems, ih, List.map_cons]

theorem disjunctItems_eq_map (trees : List Tree) : disjunctItems trees = trees.map items := by
  induction trees with
  | nil => rfl
  | cons tree trees ih => rw [disjunctItems, ih, List.map_cons]

/-- Outside of parentheses, a negation or leaf has no operator but negation signs. -/
theorem isOperator_of_mem_items_of_isCompound {tree : Tree} (h : tree.isCompound = false)
    (operator : Operator) (hoperator : operator ≠ .not) :
    ∀ item ∈ tree.items, item.isOperator operator = false := by
  induction tree using Tree.induct with
  | term word => simp [items, Item.isOperator]
  | phrase words => simp [items, Item.isOperator]
  | not operand ih =>
    rw [items]
    refine List.forall_mem_cons.2 ⟨decide_eq_false hoperator.symm, ?_⟩
    split
    · simp [Item.isOperator]
    · next hoperand => exact ih (Bool.eq_false_iff.2 hoperand)
  | and operands ih => cases h
  | or operands ih => cases h

theorem mem_intercalate {α : Type} {separator x : α} {lists : List (List α)}
    (h : x ∈ [separator].intercalate lists) : x = separator ∨ ∃ l ∈ lists, x ∈ l := by
  induction lists with
  | nil => cases h
  | cons l lists ih =>
    cases lists with
    | nil =>
      rw [List.intercalate_singleton] at h
      exact Or.inr ⟨l, List.mem_singleton_self l, h⟩
    | cons next more =>
      rw [List.intercalate_cons_cons] at h
      simp only [List.mem_append, List.mem_singleton] at h
      rcases h with (hl | hseparator) | hmore
      · exact Or.inr ⟨l, List.mem_cons_self, hl⟩
      · exact Or.inl hseparator
      · rcases ih hmore with hseparator | ⟨l', hl', hx⟩
        · exact Or.inl hseparator
        · exact Or.inr ⟨l', List.mem_cons_of_mem l hl', hx⟩

/-- Outside of parentheses, nothing but a disjunction has a disjunction sign. -/
theorem isOperator_or_of_mem_items {tree : Tree} (h : tree.isOr = false) :
    ∀ item ∈ tree.items, item.isOperator .or = false := by
  induction tree using Tree.induct with
  | term word => exact isOperator_of_mem_items_of_isCompound rfl .or nofun
  | phrase words => exact isOperator_of_mem_items_of_isCompound rfl .or nofun
  | not operand ih => exact isOperator_of_mem_items_of_isCompound rfl .or nofun
  | and operands ih =>
    intro item hitem
    rw [items, conjunctItems_eq_map] at hitem
    rcases mem_intercalate hitem with rfl | ⟨member, hmember, hmem⟩
    · rfl
    · obtain ⟨tree, htree, rfl⟩ := List.mem_map.1 hmember
      split at hmem
      · rw [List.mem_singleton.1 hmem]
        rfl
      · next hor => exact ih tree htree (Bool.eq_false_iff.2 hor) item hmem
  | or operands ih => cases h

/-! ### Reading the items of a tree -/

/-- A negation or leaf is read at the tightest level. -/
theorem readUnary_items {tree : Tree} (h : tree.isCompound = false) :
    readUnary tree.items = some tree := by
  induction tree using Tree.induct with
  | term word => rfl
  | phrase words => rfl
  | not operand ih =>
    rw [items, readUnary]
    split
    · rfl
    · next hoperand =>
      rw [ih (Bool.eq_false_iff.2 hoperand)]
      rfl
  | and operands ih => cases h
  | or operands ih => cases h

/-- A negation or leaf is read wherever a member of a phrase is. -/
theorem readPhrase_items {tree : Tree} (h : tree.isCompound = false) :
    readPhrase tree.items = some tree := by
  rw [readPhrase, readChain_of_forall (isOperator_of_mem_items_of_isCompound h .followedBy nofun)]
  exact readUnary_items h

/-- A canonical tree that is no disjunction is read wherever a disjunct is. -/
theorem readConjunction_items {tree : Tree} (hcanonical : tree.IsCanonical)
    (h : tree.isOr = false) : readConjunction tree.items = some tree := by
  cases hcompound : tree.isCompound with
  | false =>
    rw [readConjunction,
      readChain_of_forall (isOperator_of_mem_items_of_isCompound hcompound .and nofun)]
    exact readPhrase_items hcompound
  | true =>
    cases tree with
    | and operands =>
      obtain ⟨htwo, hoperands⟩ := (Connective.and.isCanonical_node_iff operands).1 hcanonical
      -- No conjunct is a conjunction, since the tree is canonical, and a disjunction stands in
      -- parentheses: it is a single item by now.
      have hmember : ∀ tree ∈ operands, tree.isOr = true ∨ tree.isCompound = false := by
        intro tree htree
        have hand := (hoperands tree htree).2
        cases tree with
        | and trees => cases hand
        | or trees => exact Or.inl rfl
        | _ => exact Or.inr rfl
      rw [readConjunction, items, conjunctItems_eq_map, readChain_intercalate (g := id) htwo]
      · rw [List.map_id]
      · intro tree htree
        split
        · simp [Item.isOperator]
        · next hor =>
          exact isOperator_of_mem_items_of_isCompound ((hmember tree htree).resolve_left hor) .and
            nofun
      · intro tree htree
        split
        · rfl
        · next hor => exact readPhrase_items ((hmember tree htree).resolve_left hor)
    | or operands => cases h
    | _ => cases hcompound

/-- A canonical tree is read from its items. -/
theorem readDisjunction_items {tree : Tree} (h : tree.IsCanonical) :
    readDisjunction tree.items = some tree := by
  cases hor : tree.isOr with
  | false =>
    rw [readDisjunction, readChain_of_forall (isOperator_or_of_mem_items hor)]
    exact readConjunction_items h hor
  | true =>
    cases tree with
    | or operands =>
      obtain ⟨htwo, hoperands⟩ := (Connective.or.isCanonical_node_iff operands).1 h
      have hmember : ∀ tree ∈ operands, tree.isOr = false := by
        intro tree htree
        have hnode := (hoperands tree htree).2
        cases tree with
        | or trees => cases hnode
        | _ => rfl
      rw [readDisjunction, items, disjunctItems_eq_map, readChain_intercalate (g := id) htwo]
      · rw [List.map_id]
      · exact fun tree htree => isOperator_or_of_mem_items (hmember tree htree)
      · exact fun tree htree =>
          readConjunction_items (hoperands tree htree).1 (hmember tree htree)
    | _ => cases hor

/-- The words of a phrase with signs between them are read as the phrase. -/
theorem readDisjunction_phrase {words : List Text} (htwo : 2 ≤ words.length) :
    readDisjunction ([.operator .followedBy].intercalate
      (words.map fun word => [.operand (term word)])) = some (phrase words) := by
  have hno (operator : Operator) (hoperator : operator ≠ .followedBy) :
      ∀ item ∈ [Item.operator .followedBy].intercalate
        (words.map fun word => [Item.operand (term word)]), item.isOperator operator = false := by
    intro item hitem
    rcases mem_intercalate hitem with rfl | ⟨member, hmember, hmem⟩
    · exact decide_eq_false hoperator.symm
    · obtain ⟨word, -, rfl⟩ := List.mem_map.1 hmember
      rw [List.mem_singleton.1 hmem]
      rfl
  rw [readDisjunction, readChain_of_forall (hno .or nofun), readConjunction,
    readChain_of_forall (hno .and nofun), readPhrase,
    readChain_intercalate (g := term) htwo (fun word _ => by simp [Item.isOperator])
      fun word _ => rfl,
    mapM_eq_some (f := term) (h := id) fun word _ => rfl, List.map_id]
  rfl

end Tree

/-! ### Reading the symbols of a tree -/

namespace Notation

/-- Reading symbols, whatever has been read before and comes after, adds given items. -/
def ReadsAs (symbols : List Symbol) (items : List Item) : Prop :=
  ∀ before around rest,
    readSymbols before around (symbols ++ rest) = readSymbols (before ++ items) around rest

namespace ReadsAs

theorem nil : ReadsAs [] [] := by
  intro before around rest
  rw [List.append_nil, List.nil_append]

theorem operand (word : Text) : ReadsAs [.operand word] [.operand (.term word)] :=
  fun _ _ _ => rfl

/-- An operator and symbols. -/
theorem cons (operator : Operator) {symbols : List Symbol} {items : List Item}
    (h : ReadsAs symbols items) :
    ReadsAs (.operator operator :: symbols) (.operator operator :: items) := by
  intro before around rest
  rw [List.cons_append, readSymbols, h, List.append_assoc, List.singleton_append]

theorem append {first second : List Symbol} {left right : List Item} (hfirst : ReadsAs first left)
    (hsecond : ReadsAs second right) : ReadsAs (first ++ second) (left ++ right) := by
  intro before around rest
  rw [List.append_assoc, hfirst, hsecond, List.append_assoc]

/-- Symbols in parentheses are read as one operand, the tree that they are read as by themselves. -/
theorem enclosed {symbols : List Symbol} {items : List Item} {tree : Tree}
    (h : ReadsAs symbols items) (hread : readDisjunction items = some tree) :
    ReadsAs (enclosed symbols) [.operand tree] := by
  intro before around rest
  rw [Notation.enclosed, List.cons_append, List.append_assoc, readSymbols, h, List.nil_append,
    List.singleton_append, readSymbols]
  simp only [hread, Option.bind_some]

/-- A chain of symbols is read as a chain of items. -/
theorem chained {α : Type} {members : List α} {symbols : α → List Symbol} {items : α → List Item}
    (operator : Operator) (h : ∀ member ∈ members, ReadsAs (symbols member) (items member)) :
    ReadsAs (chained operator (members.map symbols))
      ([.operator operator].intercalate (members.map items)) := by
  induction members with
  | nil => exact nil
  | cons member members ih =>
    obtain ⟨hmember, hmembers⟩ := List.forall_mem_cons.1 h
    cases members with
    | nil =>
      simpa only [Notation.chained, List.map_cons, List.map_nil, List.intercalate_singleton]
        using hmember
    | cons next more =>
      have happend := hmember.append (cons operator (ih hmembers))
      simpa only [Notation.chained, List.map_cons, List.intercalate_cons_cons, List.append_assoc,
        List.singleton_append] using happend

/-- Symbols that stand by themselves are read as their items are. -/
theorem readSymbols_eq {symbols : List Symbol} {items : List Item}
    (h : ReadsAs symbols items) : readSymbols [] [] symbols = readDisjunction items := by
  have hreads := h [] [] []
  rwa [List.append_nil, List.nil_append, readSymbols, List.isEmpty_nil, if_pos rfl] at hreads

end ReadsAs

end Notation

namespace Tree

open Notation

/-- The symbols of a canonical tree are read as its items. -/
theorem readsAs_symbols {tree : Tree} (hcanonical : tree.IsCanonical)
    (hphrase : ∀ words, phrase words ∈ tree.leaves → 2 ≤ words.length) :
    ReadsAs tree.symbols tree.items := by
  induction tree using Tree.induct with
  | term word =>
    rw [symbols, items]
    exact .operand word
  | phrase words =>
    rw [symbols, items]
    have htwo := hphrase words (by rw [leaves_phrase]; exact List.mem_singleton_self _)
    exact (ReadsAs.chained .followedBy fun word _ => .operand word).enclosed
      (readDisjunction_phrase htwo)
  | not operand ih =>
    rw [symbols, items]
    rw [leaves_not] at hphrase
    cases hcanonical with
    | not hoperand =>
      refine ReadsAs.cons .not ?_
      split
      · exact (ih hoperand hphrase).enclosed (readDisjunction_items hoperand)
      · exact ih hoperand hphrase
  | and operands ih =>
    rw [symbols, items, conjunctSymbols_eq_map, conjunctItems_eq_map]
    rw [leaves_and] at hphrase
    obtain ⟨-, hoperands⟩ := (Connective.and.isCanonical_node_iff operands).1 hcanonical
    refine ReadsAs.chained .and fun tree htree => ?_
    have htree_canonical := (hoperands tree htree).1
    have hreads := ih tree htree htree_canonical fun words hwords =>
      hphrase words (List.mem_flatMap.2 ⟨tree, htree, hwords⟩)
    split
    · exact hreads.enclosed (readDisjunction_items htree_canonical)
    · exact hreads
  | or operands ih =>
    rw [symbols, items, disjunctSymbols_eq_map, disjunctItems_eq_map]
    rw [leaves_or] at hphrase
    obtain ⟨-, hoperands⟩ := (Connective.or.isCanonical_node_iff operands).1 hcanonical
    exact ReadsAs.chained .or fun tree htree => ih tree htree (hoperands tree htree).1
      fun words hwords => hphrase words (List.mem_flatMap.2 ⟨tree, htree, hwords⟩)

/-- A tree of which the words can be operands is read from its text as it is from its symbols. -/
theorem read?_render_of_readSymbols {tree read : Tree}
    (hword : ∀ word ∈ tree.words, IsOperandWord word)
    (hread : readSymbols [] [] tree.symbols = some read) :
    read? tree.render = some (some read) := by
  have hsymbols := symbols?_render hword
  have hne : tree.render ≠ [] := by
    intro hnil
    rw [hnil, symbols?_nil] at hsymbols
    rw [← Option.some.inj hsymbols] at hread
    cases hread
  rw [read?, if_neg (by rw [List.isEmpty_iff]; exact hne), hsymbols, Option.bind_some, hread,
    Option.map_some]

/-- A canonical tree is read from its text, if its words can be operands and its phrases have two or
more words. -/
theorem read?_render {tree : Tree} (hcanonical : tree.IsCanonical)
    (hphrase : ∀ words, phrase words ∈ tree.leaves → 2 ≤ words.length)
    (hword : ∀ word ∈ tree.words, IsOperandWord word) :
    read? tree.render = some (some tree) := by
  refine read?_render_of_readSymbols hword ?_
  rw [(readsAs_symbols hcanonical hphrase).readSymbols_eq, readDisjunction_items hcanonical]

example : read? "a | !( b & c ) & ( d <-> e )" =
    some (some (.or [.term "a", .and [.not (.and [.term "b", .term "c"]),
      .phrase ["d", "e"]]])) := rfl

end Tree

end TsQuery
