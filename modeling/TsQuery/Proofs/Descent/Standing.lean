import TsQuery.Proofs.Assembly.Tolerance
import TsQuery.Query.Descent

/-!
# What a descent has read

A descent and an assembly that have taken the same tokens hold the same trees: what the waiting
levels have gathered is what the assembly holds in the group being read and in the groups around it,
one group for each that the descent has called for (`Descent.Around`, `Descent.Stands`).

They differ in when they do things.  A level combines its trees as soon as it sees the token that
ends it, an assembly not before it reads that token.  So a state stands for an assembly that has
been completed ahead of time, which changes nothing about what the unread tokens bring about
(`Assembly.outcome`).  That a level returns only before a token that ends it is also why the tokens
taken blindly are there and of the right kind.
-/

namespace TsQuery

/-! ### Cursors -/

namespace Cursor

/-- The tokens that have not been handed out. -/
def unread (cursor : Cursor) : List Token :=
  cursor.tokens.drop cursor.index

/-- A cursor over a sequence of tokens that has handed out each token before its place once, in
their order, and no other. -/
structure IsOn (tokens : List Token) (cursor : Cursor) : Prop where
  tokens_eq : cursor.tokens = tokens
  index_le : cursor.index ≤ tokens.length
  taken : cursor.taken.reverse = tokens.take cursor.index

theorem next?_eq (cursor : Cursor) : cursor.next? = cursor.unread.head?.map Token.kind := by
  rw [next?, unread, List.head?_drop]

theorem next?_of_mem_head? {cursor : Cursor} {token : Token} (h : token ∈ cursor.unread.head?) :
    cursor.next? = some token.kind := by
  rw [next?_eq, Option.mem_def.1 h, Option.map_some]

/-- Without a next token all have been handed out. -/
theorem unread_eq_nil {cursor : Cursor} (h : cursor.next? = none) : cursor.unread = [] := by
  rw [next?_eq, Option.map_eq_none_iff] at h
  exact List.head?_eq_none_iff.1 h

/-- A cursor hands out the next token and moves behind it. -/
structure Hands (cursor : Cursor) (token : Token) (after : Cursor) : Prop where
  take? : cursor.take? = some (token, after)
  unread : cursor.unread = token :: after.unread
  isOn : ∀ tokens, cursor.IsOn tokens → after.IsOn tokens

/-- A token that has been seen to come next can be taken. -/
theorem exists_hands {cursor : Cursor} {kind : TokenKind} (h : cursor.next? = some kind) :
    ∃ token after, cursor.Hands token after ∧ token.kind = kind := by
  obtain ⟨token, htoken, hkind⟩ := Option.map_eq_some_iff.1 h
  have hindex : cursor.index < cursor.tokens.length := (List.getElem?_eq_some_iff.1 htoken).1
  refine ⟨token, ⟨cursor.tokens, cursor.index + 1, token :: cursor.taken⟩, ⟨?_, ?_, ?_⟩, hkind⟩
  · rw [Cursor.take?, htoken, Option.map_some]
  · rw [Cursor.unread, List.drop_eq_getElem_cons hindex, (List.getElem?_eq_some_iff.1 htoken).2]
    rfl
  · rintro tokens ⟨rfl, -, htaken⟩
    refine ⟨rfl, hindex, ?_⟩
    rw [List.reverse_cons, htaken, List.take_add_one, htoken, Option.toList_some]

end Cursor

/-! ### What is still to come -/

namespace Assembly

/-- Reading a token adds it to the stray parentheses or leaves these as they were. -/
theorem strays_read (state : Assembly) (token : Token) :
    (state.read token).strays = state.strays ∨
      token.kind = .closing ∧ (state.read token).strays = token :: state.strays := by
  cases hkind : token.kind with
  | word => rw [read_of_word state hkind]; exact Or.inl rfl
  | phrase words => rw [read_of_phrase state hkind]; exact Or.inl rfl
  | and => rw [read_of_and state hkind]; exact Or.inl rfl
  | or => rw [read_of_or state hkind]; exact Or.inl rfl
  | not => rw [read_of_not state hkind]; exact Or.inl rfl
  | opening =>
    rcases Nat.lt_or_ge state.enclosing.length maxDepth with hroom | hfull
    · rw [read_of_opening state hkind hroom]; exact Or.inl rfl
    · rw [read_of_opening_of_full state hkind hfull]; exact Or.inl rfl
  | closing =>
    cases henclosing : state.enclosing with
    | nil => rw [read_of_stray state hkind henclosing]; exact Or.inr ⟨rfl, rfl⟩
    | cons outer rest => rw [read_of_closing state hkind henclosing]; exact Or.inl rfl

/-- A conjunction can be completed ahead of the token that ends it. -/
theorem outcome_endDisjunct (state : Assembly) {tokens : List Token}
    (h : ∀ token ∈ tokens.head?, token.kind = .or ∨ token.kind = .closing) :
    (state.withGroup state.group.endDisjunct).outcome tokens = state.outcome tokens := by
  refine state.outcome_withGroup state.group.tree?_endDisjunct fun token htoken => ?_
  rcases h token htoken with hor | hclosing
  · refine Or.inr ?_
    rw [read_of_or _ hor, read_of_or _ hor, group_withGroup, Group.endDisjunct_endDisjunct,
      withGroup_withGroup]
  · exact Or.inl hclosing

/-- Negation signs can be forgotten ahead of a token that is no operand for them. -/
theorem outcome_add_none (state : Assembly) {tokens : List Token}
    (h : ∀ token ∈ tokens.head?,
      token.kind = .and ∨ token.kind = .or ∨ token.kind = .closing) :
    (state.withGroup (state.group.add none)).outcome tokens = state.outcome tokens := by
  have hgroup : (state.group.add none).tree? = state.group.tree? := rfl
  refine state.outcome_withGroup hgroup fun token htoken => ?_
  rcases h token htoken with hand | hor | hclosing
  · refine Or.inr ?_
    rw [read_of_and _ hand, read_of_and _ hand]
    rfl
  · refine Or.inr ?_
    rw [read_of_or _ hor, read_of_or _ hor]
    rfl
  · exact Or.inl hclosing

/-- At the end of the input a group can end in the group around it. -/
theorem outcome_closed (state : Assembly) {outer : Group} {rest : List Group}
    (h : state.enclosing = outer :: rest) :
    (state.closed outer rest).outcome [] = state.outcome [] := by
  simp only [outcome, List.foldl_nil, tree?, outermost, closed, h, List.foldl_cons]

/-- At the end of the input the outermost group can join the trees that have been ended. -/
theorem outcome_ended (state : Assembly) (h : state.enclosing = []) :
    Assembly.outcome
        { ended := state.group.tree?.toList ++ state.ended, strays := state.strays } [] =
      state.outcome [] := by
  have hempty : ({} : Group).tree?.toList = [] := rfl
  simp only [outcome, List.foldl_nil, tree?, outermost, h, hempty, List.nil_append]

end Assembly

namespace Descent

/-! ### Levels as groups -/

/-- The group that a conjunction and the disjunction around it are reading, behind a run of negation
signs. -/
def gathered (disjuncts conjuncts : List Tree) (signs : Nat) : Group where
  disjuncts := disjuncts.reverse
  conjuncts := conjuncts.reverse
  negated := decide (signs % 2 = 1)

theorem flip_gathered (disjuncts conjuncts : List Tree) (signs : Nat) :
    (gathered disjuncts conjuncts signs).flip = gathered disjuncts conjuncts (signs + 1) := by
  have hsigns : (!decide (signs % 2 = 1)) = decide ((signs + 1) % 2 = 1) := by
    rw [← decide_not, decide_eq_decide]
    omega
  rw [Group.flip, gathered, gathered, hsigns]

/-- An operand is added behind the conjuncts gathered before, with its signs. -/
theorem add_gathered (disjuncts conjuncts : List Tree) (signs : Nat) (tree : Option Tree) :
    (gathered disjuncts conjuncts signs).add tree =
      gathered disjuncts (conjuncts ++ (tree.map (signed signs)).toList) 0 := by
  cases tree with
  | none => rw [Option.map_none, Option.toList_none, List.append_nil]; rfl
  | some tree =>
    simp only [Group.add, gathered, signed, decide_eq_true_eq, Option.map_some,
      Option.toList_some, List.reverse_append, List.reverse_singleton, List.singleton_append]
    rfl

theorem add_none_gathered (disjuncts conjuncts : List Tree) (signs : Nat) :
    (gathered disjuncts conjuncts signs).add none = gathered disjuncts conjuncts 0 := rfl

/-- A conjunction that ends is a disjunct behind those gathered before, unless it is empty. -/
theorem endDisjunct_gathered (disjuncts conjuncts : List Tree) (signs : Nat) :
    (gathered disjuncts conjuncts signs).endDisjunct =
      gathered (disjuncts ++ (combined? Tree.conjunction conjuncts).toList) [] 0 := by
  cases conjuncts with
  | nil => rw [combined?, List.isEmpty_nil, if_pos rfl, Option.toList_none, List.append_nil]; rfl
  | cons first more =>
    have hne : ((first :: more).reverse).isEmpty = false := by
      rw [List.isEmpty_reverse, List.isEmpty_cons]
    rw [combined?, List.isEmpty_cons, if_neg Bool.false_ne_true, Group.endDisjunct, gathered, hne,
      if_neg Bool.false_ne_true, List.reverse_reverse, gathered, Option.toList_some,
      List.reverse_append]
    rfl

/-- A disjunction that ends is the tree of its group. -/
theorem tree?_gathered (disjuncts : List Tree) (signs : Nat) :
    (gathered disjuncts [] signs).tree? = combined? Tree.disjunction disjuncts := by
  rw [Group.tree?, endDisjunct_gathered, combined?, List.isEmpty_nil, if_pos rfl,
    Option.toList_none, List.append_nil]
  rcases disjuncts.eq_nil_or_concat' with rfl | ⟨front, last, rfl⟩
  · rfl
  · simp [gathered, combined?]

/-- The conjunction of what the query has gathered is the tree of the whole. -/
theorem tree?_ended (trees : List Tree) (strays : List Token) :
    ({ ended := trees.reverse, strays } : Assembly).tree? = combined? Tree.conjunction trees := by
  rcases trees.eq_nil_or_concat' with rfl | ⟨front, last, rfl⟩
  · rfl
  · simp [Assembly.tree?, Assembly.outermost, Group.tree?, Group.endDisjunct, combined?]

theorem endsConjunction_eq_true_iff (next : Option TokenKind) :
    endsConjunction next = true ↔ next = none ∨ next = some .or ∨ next = some .closing := by
  unfold endsConjunction
  split <;> simp_all

theorem kind_of_ends {cursor : Cursor} (h : endsConjunction cursor.next? = true) {token : Token}
    (htoken : token ∈ cursor.unread.head?) : token.kind = .or ∨ token.kind = .closing := by
  rw [Cursor.next?_of_mem_head? htoken, endsConjunction_eq_true_iff] at h
  simpa using h

/-- What follows begins an operand that has no sign of its own. -/
def BeginsPrimary (next : Option TokenKind) : Prop :=
  next = some .word ∨ (∃ words, next = some (.phrase words)) ∨ next = some .opening

/-- Whatever neither ends a conjunction nor is a sign begins such an operand. -/
theorem beginsPrimary_of_ne {next : Option TokenKind} (hends : ¬endsConjunction next = true)
    (hand : next ≠ some .and) (hnot : next ≠ some .not) : BeginsPrimary next := by
  rcases next with _ | ⟨_ | words | _ | _ | _ | _ | _⟩
  · exact absurd rfl hends
  · exact Or.inl rfl
  · exact Or.inr (Or.inl ⟨words, rfl⟩)
  · exact absurd rfl hand
  · exact absurd rfl hends
  · exact absurd rfl hnot
  · exact Or.inr (Or.inr rfl)
  · exact absurd rfl hends

/-- The calls of a conjunction and of the disjunction around it. -/
abbrev levels (depth : Nat) (disjuncts conjuncts : List Tree) (calls : List Call) : List Call :=
  .conjunction depth conjuncts :: .disjunction depth disjuncts :: calls

/-- The calls around a disjunction, with the groups that they are the levels of and what the query
has gathered. -/
inductive Around : List Call → List Group → List Tree → Prop
  | query (trees : List Tree) : Around [.query trees] [] trees.reverse
  | group {calls : List Call} {enclosing : List Group} {ended : List Tree}
      (disjuncts conjuncts : List Tree) (signs : Nat) (around : Around calls enclosing ended)
      (room : enclosing.length < maxDepth) :
      Around (.group :: .unary signs :: levels enclosing.length disjuncts conjuncts calls)
        (gathered disjuncts conjuncts signs :: enclosing) ended

/-- The place of a disjunction: how many groups are open, and the calls around it. -/
structure Within (depth : Nat) (calls : List Call) (state : Assembly) : Prop where
  depth_eq : depth = state.enclosing.length
  around : Around calls state.enclosing state.ended

theorem Within.withGroup {depth : Nat} {calls : List Call} {state : Assembly}
    (h : Within depth calls state) (group : Group) : Within depth calls (state.withGroup group) :=
  ⟨h.depth_eq, h.around⟩

/-- The place of the disjunction that a group calls for. -/
theorem Within.opened {depth signs : Nat} {calls : List Call} {state : Assembly}
    {disjuncts conjuncts : List Tree} (h : Within depth calls state)
    (hgroup : state.group = gathered disjuncts conjuncts signs)
    (hroom : state.enclosing.length < maxDepth) :
    Within (depth + 1) (.group :: .unary signs :: levels depth disjuncts conjuncts calls)
      state.opened := by
  obtain ⟨rfl, haround⟩ := h
  refine ⟨rfl, ?_⟩
  rw [Assembly.opened, hgroup]
  exact .group disjuncts conjuncts signs haround hroom

/-- What is being done, and for whom, in terms of an assembly, given the kind of the next token.  A
tree is handed to the level that called for it: an operand to the signs before it, a signed operand
to its conjunction, a conjunction to its disjunction, a disjunction to its group or to the query,
and the tree of the whole query to nothing. -/
inductive Stands (next : Option TokenKind) : Task → List Call → Assembly → Prop
  | query (trees : List Tree) (strays : List Token) :
      Stands next (.query trees) [] { ended := trees.reverse, strays }
  | disjunction {depth : Nat} {calls : List Call} {state : Assembly} (disjuncts : List Tree)
      (within : Within depth calls state) (group : state.group = gathered disjuncts [] 0) :
      Stands next (.disjunction depth disjuncts) calls state
  | conjunction {depth : Nat} {calls : List Call} {state : Assembly}
      (disjuncts conjuncts : List Tree) (within : Within depth calls state)
      (group : state.group = gathered disjuncts conjuncts 0) :
      Stands next (.conjunction depth conjuncts) (.disjunction depth disjuncts :: calls) state
  | unary {depth : Nat} {calls : List Call} {state : Assembly} (disjuncts conjuncts : List Tree)
      (signs : Nat) (within : Within depth calls state)
      (group : state.group = gathered disjuncts conjuncts signs) :
      Stands next (.unary depth signs)
        (levels depth disjuncts conjuncts calls) state
  | primary {depth : Nat} {calls : List Call} {state : Assembly} (disjuncts conjuncts : List Tree)
      (signs : Nat) (within : Within depth calls state)
      (group : state.group = gathered disjuncts conjuncts signs) (begins : BeginsPrimary next) :
      Stands next (.primary depth)
        (.unary signs :: levels depth disjuncts conjuncts calls) state
  | group {depth : Nat} {calls : List Call} {state : Assembly} (disjuncts conjuncts : List Tree)
      (signs : Nat) (within : Within depth calls state)
      (group : state.group = gathered disjuncts conjuncts signs) {token : Token}
      (kind : token.kind = .opening) :
      Stands next (.group depth token)
        (.unary signs :: levels depth disjuncts conjuncts calls)
        (state.read token)
  | operand {depth : Nat} {calls : List Call} {state : Assembly} (disjuncts conjuncts : List Tree)
      (signs : Nat) (tree : Option Tree) (within : Within depth calls state)
      (group : state.group = (gathered disjuncts conjuncts signs).add tree) :
      Stands next (.handing tree)
        (.unary signs :: levels depth disjuncts conjuncts calls) state
  | conjunct {depth : Nat} {calls : List Call} {state : Assembly} (disjuncts conjuncts : List Tree)
      (tree : Option Tree) (within : Within depth calls state)
      (group : state.group = gathered disjuncts (conjuncts ++ tree.toList) 0) :
      Stands next (.handing tree)
        (levels depth disjuncts conjuncts calls) state
  | disjunct {depth : Nat} {calls : List Call} {state : Assembly} (disjuncts : List Tree)
      (tree : Option Tree) (within : Within depth calls state)
      (group : state.group = gathered (disjuncts ++ tree.toList) [] 0)
      (ends : endsConjunction next = true) :
      Stands next (.handing tree) (.disjunction depth disjuncts :: calls) state
  | inner {calls : List Call} {state : Assembly} {tree : Option Tree}
      (around : Around calls state.enclosing state.ended) (group : state.group.tree? = tree)
      (ends : next = none ∨ next = some .closing) : Stands next (.handing tree) calls state
  | whole {state : Assembly} {tree : Option Tree} (joined : state.tree? = tree)
      (ends : next = none) : Stands next (.handing tree) [] state

/-- A descent over a sequence of tokens that stands for an assembly, with which the unread tokens
bring about what the whole sequence does. -/
structure Follows (tokens : List Token) (state : Descent) (assembly : Assembly) : Prop where
  cursor : state.cursor.IsOn tokens
  stands : Stands state.cursor.next? state.task state.calls assembly
  strays : state.strays = assembly.strays
  closing : ∀ token ∈ state.strays, token.kind = .closing
  outcome : assembly.outcome state.cursor.unread = Assembly.outcome {} tokens

end Descent

end TsQuery
