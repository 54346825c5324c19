import TsQuery.Proofs.Notation.RoundTrip
import TsQuery.Proofs.Notation.Render
import TsQuery.Proofs.Tree.Settled

/-!
# The pieces of a rendered tree

The text of a tree is its pieces with a blank between each two (`Tree.joined_pieces`), and splitting
it at its blanks gives them back (`Tree.pieces_render`).  A piece is a sign that stands by itself,
or an opening parenthesis or a word after negation signs.  There are as many signs as negations
stand directly under one another, so that none has more than one sign exactly if no negation stands
directly under another one (`Tree.forall_hasSigns_iff`).
-/

namespace TsQuery

/-! ### Pieces -/

namespace Notation

/-- The sign of an operator. -/
def Operator.sign : Operator → Text
  | .or => ['|']
  | .and => ['&']
  | .followedBy => ['<', '-', '>']
  | .not => ['!']

/-- Pieces in parentheses. -/
def bracketed (pieces : List Text) : List Text :=
  [.char '('] :: (pieces ++ [[.char ')']])

/-- Pieces with a negation sign right before the first one. -/
def signed : List Text → List Text
  | [] => [Operator.not.sign]
  | piece :: pieces => (Operator.not.sign ++ piece) :: pieces

/-- What negation signs can stand right before: an opening parenthesis, or a word without signs and
quotes. -/
def IsNegatable (piece : Text) : Prop :=
  piece = [.char '('] ∨ IsOperandWord piece ∧ Query.quoteMark ∉ piece

/-- A piece that has a number of negation signs: a sign that stands by itself has none. -/
def HasSigns (signs : Nat) (piece : Text) : Prop :=
  signs = 0 ∧ piece ∈ ([['&'], ['|'], [')'], ['<', '-', '>']] : List Text) ∨
    ∃ rest, IsNegatable rest ∧ piece = List.replicate signs (.char '!') ++ rest

/-- What can have one more sign. -/
theorem IsNegatable.hasSigns {piece : Text} (h : IsNegatable piece) : HasSigns 0 piece :=
  Or.inr ⟨piece, h, rfl⟩

/-- The characters of a piece are neither blank nor missing. -/
theorem HasSigns.not_blank {signs : Nat} {piece : Text} (h : HasSigns signs piece) :
    piece ≠ [] ∧ ∀ c ∈ piece, isBlank c = false := by
  rcases h with ⟨-, hsign⟩ | ⟨rest, hrest, rfl⟩
  · revert piece
    decide
  · have hplain : rest ≠ [] ∧ ∀ c ∈ rest, isBlank c = false := by
      rcases hrest with rfl | ⟨hword, -⟩
      · decide
      · refine ⟨hword.1, fun c hc => ?_⟩
        have hc := hword.2 c hc
        rw [isOperandChar, Bool.and_eq_true, Bool.not_eq_true'] at hc
        exact hc.1
    refine ⟨List.append_ne_nil_of_right_ne_nil _ hplain.1, List.forall_mem_append.2 ⟨?_, hplain.2⟩⟩
    intro c hc
    rw [List.eq_of_mem_replicate hc]
    decide

/-- Nothing that can be negated begins with a negation sign. -/
theorem not_isNegatable_sign (piece : Text) : ¬IsNegatable (.char '!' :: piece) := by
  rintro (heq | ⟨hword, -⟩)
  · cases heq
  · exact absurd (hword.2 _ List.mem_cons_self) (by decide)

/-- No piece with at most one sign begins with two. -/
theorem not_hasSigns_of_two {signs : Nat} (h : signs ≤ 1) (piece : Text) :
    ¬HasSigns signs (.char '!' :: .char '!' :: piece) := by
  rintro (⟨-, hsign⟩ | ⟨rest, hrest, heq⟩)
  · simp at hsign
  · obtain rfl | rfl : signs = 0 ∨ signs = 1 := by omega
    · rw [List.replicate_zero, List.nil_append] at heq
      exact not_isNegatable_sign _ (heq ▸ hrest)
    · have htail : .char '!' :: piece = rest := (List.cons.inj heq).2
      exact not_isNegatable_sign _ (htail ▸ hrest)

/-- What holds of parentheses and of pieces holds of the pieces in parentheses. -/
theorem forall_mem_bracketed {P : Text → Prop} (hopening : P [.char '(']) (hclosing : P [.char ')'])
    {pieces : List Text} (h : ∀ piece ∈ pieces, P piece) : ∀ piece ∈ bracketed pieces, P piece := by
  refine List.forall_mem_cons.2 ⟨hopening, List.forall_mem_append.2 ⟨h, fun piece hpiece => ?_⟩⟩
  rwa [List.mem_singleton.1 hpiece]

/-- What holds of a sign and of the pieces of members holds of the members with the sign between
each two. -/
theorem forall_mem_intercalate {P : Text → Prop} {sign : Text} (hsign : P sign)
    {members : List (List Text)} (h : ∀ member ∈ members, ∀ piece ∈ member, P piece) :
    ∀ piece ∈ [sign].intercalate members, P piece := by
  intro piece hpiece
  rcases Tree.mem_intercalate hpiece with rfl | ⟨member, hmember, hmem⟩
  · exact hsign
  · exact h member hmember piece hmem

/-- A piece has a number of signs, and at most one under a condition. -/
def HasSignsIf (single : Prop) (piece : Text) : Prop :=
  ∃ signs, HasSigns signs piece ∧ (single → signs ≤ 1)

theorem HasSigns.hasSignsIf {piece : Text} (h : HasSigns 0 piece) (single : Prop) :
    HasSignsIf single piece :=
  ⟨0, h, fun _ => Nat.zero_le 1⟩

theorem HasSignsIf.mono {single weaker : Prop} {piece : Text} (h : HasSignsIf single piece)
    (himp : weaker → single) : HasSignsIf weaker piece := by
  obtain ⟨signs, hsigns, hle⟩ := h
  exact ⟨signs, hsigns, fun hweaker => hle (himp hweaker)⟩

/-- An opening parenthesis can be negated. -/
theorem hasSigns_opening : HasSigns 0 [.char '('] :=
  IsNegatable.hasSigns (Or.inl rfl)

/-- All other signs stand by themselves. -/
theorem hasSigns_standing (sign : Text)
    (h : sign ∈ ([['&'], ['|'], [')'], ['<', '-', '>']] : List Text)) : HasSigns 0 sign :=
  Or.inl ⟨rfl, h⟩

theorem joined_bracketed {pieces : List Text} (h : pieces ≠ []) :
    Text.joined [.char ' '] (bracketed pieces) = Tree.grouped (Text.joined [.char ' '] pieces) := by
  have hclosed : pieces ++ [[.char ')']] ≠ [] := List.append_ne_nil_of_left_ne_nil h _
  have hopening := Text.joined_append (.char ' ') (List.cons_ne_nil [.char '('] []) hclosed
  rw [List.singleton_append] at hopening
  rw [bracketed, hopening, Text.joined_append _ h (List.cons_ne_nil _ _)]
  simp [Text.joined, Tree.grouped]

theorem joined_signed (pieces : List Text) :
    Text.joined [.char ' '] (signed pieces) = .char '!' :: Text.joined [.char ' '] pieces := by
  cases pieces with
  | nil => rfl
  | cons piece pieces =>
    cases pieces with
    | nil => rfl
    | cons next more =>
      simp only [signed, Text.joined, List.intercalate_cons_cons, Operator.sign, List.cons_append,
        List.nil_append]

end Notation

namespace Tree

open Notation

mutual

/-- The pieces that the text of a tree has between its blanks. -/
def pieces : Tree → List Text
  | term word => [word]
  | phrase words =>
    bracketed ([Operator.followedBy.sign].intercalate (words.map fun word => [word]))
  | not operand => signed (if operand.isCompound then bracketed operand.pieces else operand.pieces)
  | and operands => [Operator.and.sign].intercalate (conjunctPieces operands)
  | or operands => [Operator.or.sign].intercalate (disjunctPieces operands)

/-- The pieces of operands as they stand in a conjunction. -/
def conjunctPieces : List Tree → List (List Text)
  | [] => []
  | tree :: trees =>
    (if tree.isOr then bracketed tree.pieces else tree.pieces) :: conjunctPieces trees

/-- The pieces of operands as they stand in a disjunction. -/
def disjunctPieces : List Tree → List (List Text)
  | [] => []
  | tree :: trees => tree.pieces :: disjunctPieces trees

end

theorem conjunctPieces_eq_map (trees : List Tree) :
    conjunctPieces trees =
      trees.map fun tree => if tree.isOr then bracketed tree.pieces else tree.pieces := by
  induction trees with
  | nil => rfl
  | cons tree trees ih => rw [conjunctPieces, ih, List.map_cons]

theorem disjunctPieces_eq_map (trees : List Tree) : disjunctPieces trees = trees.map pieces := by
  induction trees with
  | nil => rfl
  | cons tree trees ih => rw [disjunctPieces, ih, List.map_cons]

/-- Members that are pieces joined by blanks, with an operator between each two, are pieces joined
by blanks. -/
theorem joined_chain {α : Type} (operator : Operator) {members : List α} {f : α → List Text}
    {g : α → Text} (hne : members ≠ [])
    (h : ∀ member ∈ members,
      f member ≠ [] ∧ Text.joined [.char ' '] (f member) = g member) :
    [operator.sign].intercalate (members.map f) ≠ [] ∧
      Text.joined [.char ' '] ([operator.sign].intercalate (members.map f)) =
        Text.joined (.char ' ' :: (operator.sign ++ [.char ' '])) (members.map g) := by
  have hmembers : ∀ member ∈ members.map f, member ≠ [] :=
    List.forall_mem_map.2 fun member hmember => (h member hmember).1
  have hmap : (members.map f).map (Text.joined [.char ' ']) = members.map g := by
    rw [List.map_map]
    exact List.map_congr_left fun member hmember => (h member hmember).2
  have hnonempty : members.map f ≠ [] := by rwa [ne_eq, List.map_eq_nil_iff]
  constructor
  · exact Text.intercalate_ne_nil _ hnonempty hmembers
  · rw [Text.joined_intercalate _ hmembers, hmap]

/-- The text of a tree is its pieces with a blank between each two, and there is a piece. -/
theorem joined_pieces {tree : Tree} (hcanonical : tree.IsCanonical)
    (hphrase : ∀ words, phrase words ∈ tree.leaves → 2 ≤ words.length) :
    tree.pieces ≠ [] ∧ Text.joined [.char ' '] tree.pieces = tree.render := by
  have hgroup {pieces : List Text} {text : Text}
      (h : pieces ≠ [] ∧ Text.joined [.char ' '] pieces = text) :
      bracketed pieces ≠ [] ∧ Text.joined [.char ' '] (bracketed pieces) = grouped text := by
    rw [joined_bracketed h.1, h.2]
    exact ⟨List.cons_ne_nil _ _, rfl⟩
  have hne_of_two {α : Type} {members : List α} (h : 2 ≤ members.length) : members ≠ [] := by
    rintro rfl
    exact absurd h (Nat.not_succ_le_zero 1)
  induction tree using Tree.induct with
  | term word =>
    rw [pieces, render, Text.joined, List.intercalate_singleton]
    exact ⟨List.cons_ne_nil word [], rfl⟩
  | phrase words =>
    have htwo := hphrase words (by rw [leaves_phrase]; exact List.mem_singleton_self _)
    have hchain := joined_chain .followedBy (f := fun word => [word]) (g := id)
      (hne_of_two htwo) fun word _ => ⟨List.cons_ne_nil word [], List.intercalate_singleton⟩
    rw [List.map_id] at hchain
    rw [pieces, render]
    exact hgroup hchain
  | not operand ih =>
    rw [leaves_not] at hphrase
    cases hcanonical with
    | not hoperand =>
      have hinner := ih hoperand hphrase
      rw [pieces, render, joined_signed]
      constructor
      · unfold signed
        split
        · exact List.cons_ne_nil _ _
        · exact List.cons_ne_nil _ _
      · split
        · rw [(hgroup hinner).2]
        · rw [hinner.2]
  | and operands ih =>
    obtain ⟨htwo, hoperands⟩ := (Connective.and.isCanonical_node_iff operands).1 hcanonical
    rw [leaves_and] at hphrase
    rw [pieces, render, conjunctPieces_eq_map, renderConjuncts_eq_map]
    refine joined_chain .and (hne_of_two htwo) fun tree htree => ?_
    have hinner := ih tree htree (hoperands tree htree).1 fun words hwords =>
      hphrase words (List.mem_flatMap.2 ⟨tree, htree, hwords⟩)
    split
    · exact hgroup hinner
    · exact hinner
  | or operands ih =>
    obtain ⟨htwo, hoperands⟩ := (Connective.or.isCanonical_node_iff operands).1 hcanonical
    rw [leaves_or] at hphrase
    rw [pieces, render, disjunctPieces_eq_map, renderDisjuncts_eq_map]
    exact joined_chain .or (hne_of_two htwo) fun tree htree =>
      ih tree htree (hoperands tree htree).1 fun words hwords =>
        hphrase words (List.mem_flatMap.2 ⟨tree, htree, hwords⟩)

/-! ### Signs of the pieces -/

/-- A tree that is not compound begins with a piece that can be negated, after as many signs as it
has negations there. -/
theorem head_pieces {tree : Tree} (h : tree.isCompound = false)
    (hword : ∀ word ∈ tree.words, IsNegatable word) :
    ∃ signs rest more, IsNegatable rest ∧
      tree.pieces = (List.replicate signs (.char '!') ++ rest) :: more ∧
      (tree.isNot = false ↔ signs = 0) := by
  induction tree using Tree.induct with
  | term word =>
    rw [words_term] at hword
    exact ⟨0, word, [], hword word (List.mem_singleton_self word), rfl, iff_of_true rfl rfl⟩
  | phrase words => exact ⟨0, [.char '('], _, Or.inl rfl, rfl, iff_of_true rfl rfl⟩
  | not operand ih =>
    rw [words_not] at hword
    cases hcompound : operand.isCompound with
    | true =>
      refine ⟨1, [.char '('], operand.pieces ++ [[.char ')']], Or.inl rfl, ?_,
        iff_of_false nofun nofun⟩
      rw [pieces, if_pos hcompound]
      rfl
    | false =>
      obtain ⟨signs, rest, more, hrest, hpieces, -⟩ := ih hcompound hword
      refine ⟨signs + 1, rest, more, hrest, ?_, iff_of_false nofun nofun⟩
      rw [pieces, if_neg (by rw [hcompound]; decide), hpieces, List.replicate_succ]
      rfl
  | and operands ih => cases h
  | or operands ih => cases h

/-- Every piece of a tree has a number of signs, and at most one if the tree has no double
negations. -/
theorem hasSignsIf_of_mem_pieces {tree : Tree} (hword : ∀ word ∈ tree.words, IsNegatable word) :
    ∀ piece ∈ tree.pieces, HasSignsIf tree.HasSingleNegations piece := by
  induction tree using Tree.induct with
  | term word =>
    rw [words_term] at hword
    intro piece hpiece
    rw [pieces, List.mem_singleton] at hpiece
    subst hpiece
    exact (hword piece (List.mem_singleton_self piece)).hasSigns.hasSignsIf _
  | phrase words =>
    rw [words_phrase] at hword
    rw [pieces]
    refine forall_mem_bracketed (hasSigns_opening.hasSignsIf _)
      ((hasSigns_standing [.char ')'] (by decide)).hasSignsIf _) ?_
    have hsign := hasSigns_standing Operator.followedBy.sign (by decide)
    refine forall_mem_intercalate (hsign.hasSignsIf _) ?_
    refine List.forall_mem_map.2 fun word hmem piece hpiece => ?_
    rw [List.mem_singleton.1 hpiece]
    exact (hword word hmem).hasSigns.hasSignsIf _
  | not operand ih =>
    rw [words_not] at hword
    have hinner : ∀ piece ∈ operand.pieces, HasSignsIf (not operand).HasSingleNegations piece := by
      intro piece hpiece
      refine (ih hword piece hpiece).mono ?_
      rintro (_ | _ | ⟨inner, -⟩)
      exact inner
    rw [pieces]
    cases hcompound : operand.isCompound with
    | true =>
      have hopening : HasSigns 1 (Operator.not.sign ++ [.char '(']) :=
        Or.inr ⟨[.char '('], Or.inl rfl, rfl⟩
      rw [if_pos rfl, bracketed, signed]
      refine List.forall_mem_cons.2 ⟨⟨1, hopening, fun _ => Nat.le_refl 1⟩, ?_⟩
      refine List.forall_mem_append.2 ⟨hinner, fun piece hpiece => ?_⟩
      rw [List.mem_singleton.1 hpiece]
      exact (hasSigns_standing [.char ')'] (by decide)).hasSignsIf _
    | false =>
      obtain ⟨signs, rest, more, hrest, hpieces, hzero⟩ := head_pieces hcompound hword
      rw [hpieces] at hinner
      rw [if_neg (by decide), hpieces, signed]
      refine List.forall_mem_cons.2 ⟨⟨signs + 1, ?_, ?_⟩, (List.forall_mem_cons.1 hinner).2⟩
      · exact Or.inr ⟨rest, hrest, by rw [List.replicate_succ]; rfl⟩
      · rintro (_ | _ | ⟨-, single⟩)
        have hnone := hzero.1 single
        omega
  | and operands ih =>
    rw [words_and, List.forall_mem_flatMap] at hword
    rw [pieces, conjunctPieces_eq_map]
    have hsign := hasSigns_standing Operator.and.sign (by decide)
    refine forall_mem_intercalate (hsign.hasSignsIf _) ?_
    refine List.forall_mem_map.2 fun tree htree => ?_
    have hinner : ∀ piece ∈ tree.pieces, HasSignsIf (and operands).HasSingleNegations piece := by
      intro piece hpiece
      refine (ih tree htree (hword tree htree) piece hpiece).mono ?_
      rintro (_ | _ | _ | inner)
      exact inner tree htree
    split
    · exact forall_mem_bracketed (hasSigns_opening.hasSignsIf _)
        ((hasSigns_standing [.char ')'] (by decide)).hasSignsIf _) hinner
    · exact hinner
  | or operands ih =>
    rw [words_or, List.forall_mem_flatMap] at hword
    rw [pieces, disjunctPieces_eq_map]
    have hsign := hasSigns_standing Operator.or.sign (by decide)
    refine forall_mem_intercalate (hsign.hasSignsIf _) ?_
    refine List.forall_mem_map.2 fun tree htree piece hpiece => ?_
    refine (ih tree htree (hword tree htree) piece hpiece).mono ?_
    rintro (_ | _ | _ | _ | inner)
    exact inner tree htree

theorem mem_intercalate_of_mem {sign piece : Text} {members : List (List Text)}
    {member : List Text} (hmember : member ∈ members) (h : piece ∈ member) :
    piece ∈ [sign].intercalate members := by
  induction members with
  | nil => cases hmember
  | cons first members ih =>
    cases members with
    | nil =>
      rw [List.intercalate_singleton]
      rwa [← List.mem_singleton.1 hmember]
    | cons next more =>
      rw [List.intercalate_cons_cons]
      rcases List.mem_cons.1 hmember with rfl | hmember
      · exact List.mem_append_left _ (List.mem_append_left _ h)
      · exact List.mem_append_right _ (ih hmember)

/-- A tree has no double negations if none of its pieces has two signs. -/
theorem hasSingleNegations_of_pieces {tree : Tree} (hword : ∀ word ∈ tree.words, IsNegatable word)
    (h : ∀ piece, .char '!' :: .char '!' :: piece ∉ tree.pieces) : tree.HasSingleNegations := by
  induction tree using Tree.induct with
  | term word => exact .term word
  | phrase words => exact .phrase words
  | not operand ih =>
    rw [words_not] at hword
    rw [pieces] at h
    cases hcompound : operand.isCompound with
    | true =>
      rw [hcompound, if_pos rfl, bracketed, signed] at h
      refine .not (ih hword fun piece hpiece => h piece ?_) ?_
      · exact List.mem_cons_of_mem _ (List.mem_append_left _ hpiece)
      · cases operand with
        | not inner => cases hcompound
        | _ => rfl
    | false =>
      obtain ⟨signs, rest, more, hrest, hpieces, hzero⟩ := head_pieces hcompound hword
      rw [hcompound, if_neg (by decide), hpieces, signed] at h
      -- A sign of the operand would be the second one of its first piece.
      have hnone : signs = 0 := by
        cases signs with
        | zero => rfl
        | succ signs => exact absurd List.mem_cons_self (h _)
      refine .not (ih hword fun piece hpiece => ?_) (hzero.2 hnone)
      subst hnone
      rw [hpieces, List.mem_cons] at hpiece
      rcases hpiece with heq | hmem
      · rw [List.replicate_zero, List.nil_append] at heq
        exact not_isNegatable_sign _ (heq ▸ hrest)
      · exact h piece (List.mem_cons_of_mem _ hmem)
  | and operands ih =>
    rw [words_and, List.forall_mem_flatMap] at hword
    rw [pieces, conjunctPieces_eq_map] at h
    refine .and fun tree htree => ih tree htree (hword tree htree) fun piece hpiece => h piece ?_
    refine mem_intercalate_of_mem (List.mem_map_of_mem htree) ?_
    split
    · exact List.mem_cons_of_mem _ (List.mem_append_left _ hpiece)
    · exact hpiece
  | or operands ih =>
    rw [words_or, List.forall_mem_flatMap] at hword
    rw [pieces, disjunctPieces_eq_map] at h
    refine .or fun tree htree => ih tree htree (hword tree htree) fun piece hpiece => h piece ?_
    exact mem_intercalate_of_mem (List.mem_map_of_mem htree) hpiece

/-- Splitting the text of a tree at its blanks gives its pieces. -/
theorem pieces_render {tree : Tree} (hcanonical : tree.IsCanonical)
    (hphrase : ∀ words, phrase words ∈ tree.leaves → 2 ≤ words.length)
    (hword : ∀ word ∈ tree.words, IsNegatable word) : tree.render.pieces = tree.pieces := by
  rw [← (joined_pieces hcanonical hphrase).2]
  refine Text.pieces_joined fun piece hpiece => ?_
  obtain ⟨signs, hsigns, -⟩ := hasSignsIf_of_mem_pieces hword piece hpiece
  exact hsigns.not_blank

/-- The pieces of a tree have at most one sign each exactly if the tree has no double negations. -/
theorem forall_hasSigns_iff {tree : Tree} (hword : ∀ word ∈ tree.words, IsNegatable word) :
    (∀ piece ∈ tree.pieces, ∃ signs ≤ 1, HasSigns signs piece) ↔ tree.HasSingleNegations := by
  constructor
  · intro h
    refine hasSingleNegations_of_pieces hword fun piece hpiece => ?_
    obtain ⟨signs, hle, hsigns⟩ := h _ hpiece
    exact not_hasSigns_of_two hle piece hsigns
  · intro h piece hpiece
    obtain ⟨signs, hsigns, hle⟩ := hasSignsIf_of_mem_pieces hword piece hpiece
    exact ⟨signs, hle h, hsigns⟩

end Tree

end TsQuery
