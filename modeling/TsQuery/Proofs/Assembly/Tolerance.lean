import Mathlib.Logic.Relation
import TsQuery.Proofs.Assembly.Grammar
import TsQuery.Proofs.Assembly.Polarity

/-!
# What a malformed query loses

Tokens that say nothing can be deleted without a change to the tree: a sign between operands that
stand side by side anyway, signs that cancel out, operators without an operand, phrases without
words, groups without tokens, closing parentheses at the end.  `Token.Tidied` lists these deletions,
each with the condition under which it says nothing, in any surroundings.

There are two reasons why a deletion is harmless.  Most deleted parts leave the state as it was
(`Assembly.foldl_read_forgotten`).  A dangling sign does change the group being read, but what comes
next takes no more of that group than its tree (`Assembly.outcome_withGroup`).
-/

namespace TsQuery

namespace Group

/-- The end of a group forgets a pending negation. -/
theorem tree?_flip (group : Group) : group.flip.tree? = group.tree? := rfl

/-- Two signs in a row cancel out. -/
theorem flip_flip (group : Group) : group.flip.flip = group := by
  simp only [flip, Bool.not_not]

/-- Completing a disjunct that has just been completed changes nothing. -/
theorem endDisjunct_endDisjunct (group : Group) :
    group.endDisjunct.endDisjunct = group.endDisjunct := by
  have hconjuncts : group.endDisjunct.conjuncts.isEmpty = true := by
    rw [conjuncts_endDisjunct, List.isEmpty_nil]
  have hnegated := group.negated_endDisjunct
  -- Nothing else about the group matters from here on.
  generalize group.endDisjunct = ended at hconjuncts hnegated ⊢
  rw [endDisjunct, if_pos hconjuncts, ← hnegated]

/-- The end of a group completes its last disjunct anyway. -/
theorem tree?_endDisjunct (group : Group) : group.endDisjunct.tree? = group.tree? := by
  rw [tree?, endDisjunct_endDisjunct, tree?]

end Group

/-- No negation sign is the last of the tokens. -/
def Token.EndsUnsigned (tokens : List Token) : Prop :=
  ∀ token ∈ tokens.getLast?, token.kind ≠ .not

instance (tokens : List Token) : Decidable (Token.EndsUnsigned tokens) :=
  inferInstanceAs (Decidable (∀ token ∈ tokens.getLast?, _))

namespace Assembly

open Grammar (afterSigns)

theorem ofTokens_append (front back : List Token) :
    ofTokens (front ++ back) = back.foldl read (ofTokens front) :=
  List.foldl_append

/-! ### Runs of negation signs -/

/-- Only a negation sign leaves a negation pending. -/
theorem negated_read (state : Assembly) {token : Token} (h : token.kind ≠ .not) :
    (state.read token).group.negated = false := by
  cases hkind : token.kind with
  | word =>
    rw [read_of_word state hkind]
    exact Group.negated_add _ _
  | phrase words =>
    rw [read_of_phrase state hkind]
    exact Group.negated_add _ _
  | and =>
    rw [read_of_and state hkind]
    exact Group.negated_add _ _
  | or =>
    rw [read_of_or state hkind]
    exact Group.negated_endDisjunct _
  | not => exact absurd hkind h
  | opening =>
    rcases Nat.lt_or_ge state.enclosing.length maxDepth with hroom | hfull
    · rw [read_of_opening state hkind hroom]
      rfl
    · rw [read_of_opening_of_full state hkind hfull]
      exact Group.negated_add _ _
  | closing =>
    cases henclosing : state.enclosing with
    | nil =>
      rw [read_of_stray state hkind henclosing]
      rfl
    | cons outer rest =>
      rw [read_of_closing state hkind henclosing]
      exact Group.negated_add _ _

/-- No negation is pending unless a sign was read last. -/
theorem negated_ofTokens {tokens : List Token} (h : Token.EndsUnsigned tokens) :
    (ofTokens tokens).group.negated = false := by
  rcases tokens.eq_nil_or_concat' with rfl | ⟨front, last, rfl⟩
  · rfl
  · rw [ofTokens_append]
    exact negated_read _ (h last List.getLast?_concat)

/-- A run of negation signs negates what comes next if it is odd. -/
theorem foldl_read_signs {signs : List Token} (h : ∀ sign ∈ signs, sign.kind = .not)
    (state : Assembly) :
    signs.foldl read state = state.withGroup (afterSigns state.group signs.length) := by
  induction signs generalizing state with
  | nil => rfl
  | cons sign signs ih =>
    obtain ⟨hsign, hsigns⟩ := List.forall_mem_cons.1 h
    rw [List.foldl_cons, read_of_not state hsign, ih hsigns, group_withGroup,
      Grammar.afterSigns_flip, withGroup_withGroup, List.length_cons]

/-- Without an operand for it, a run of negation signs is forgotten. -/
theorem add_none_afterSigns {group : Group} (h : group.negated = false) (signs : Nat) :
    (afterSigns group signs).add none = group := by
  have hforget : (afterSigns group signs).add none = group.add none := by
    unfold afterSigns
    split
    · rfl
    · rfl
  rw [hforget, Grammar.add_none_of_negated h]

/-- Tokens that add nothing, with all negation signs right before them, leave no trace. -/
theorem foldl_read_forgotten (state : Assembly) (hnegated : state.group.negated = false)
    {signs : List Token} (hsigns : ∀ sign ∈ signs, sign.kind = .not) (forgotten back : List Token)
    (h : ∀ group, forgotten.foldl read (state.withGroup group) =
      state.withGroup (group.add none)) :
    (signs ++ (forgotten ++ back)).foldl read state = back.foldl read state := by
  have hsame : state.withGroup state.group = state := rfl
  rw [List.foldl_append, List.foldl_append, foldl_read_signs hsigns, h,
    add_none_afterSigns hnegated, hsame]

/-! ### What ends a group -/

/-- A closing parenthesis takes nothing of the group that it ends but its tree. -/
theorem read_closing_congr (state : Assembly) {group : Group}
    (hgroup : group.tree? = state.group.tree?) {token : Token} (h : token.kind = .closing) :
    (state.withGroup group).read token = state.read token := by
  cases henclosing : state.enclosing with
  | nil =>
    rw [read_of_stray state h henclosing, read_of_stray (state.withGroup group) h henclosing]
    simp only [strayed, withGroup, hgroup]
  | cons outer rest =>
    rw [read_of_closing state h henclosing, read_of_closing (state.withGroup group) h henclosing]
    simp only [closed, withGroup, hgroup]

/-- The end of the input takes nothing of the group being read but its tree. -/
theorem tree?_withGroup (state : Assembly) {group : Group}
    (hgroup : group.tree? = state.group.tree?) : (state.withGroup group).tree? = state.tree? := by
  obtain ⟨ended, inner, enclosing, strays⟩ := state
  cases enclosing with
  | nil => simp only [tree?, outermost, withGroup, List.foldl_nil, hgroup]
  | cons outer rest => simp only [tree?, outermost, withGroup, List.foldl_cons, hgroup]

/-- What a state and the tokens after it bring about: the tree, and the stray parentheses. -/
def outcome (state : Assembly) (tokens : List Token) : Option Tree × List Token :=
  ((tokens.foldl read state).tree?, (tokens.foldl read state).strays)

/-- A group with the same tree can stand in for the one being read if the next token, where it is no
closing parenthesis, makes no difference between them. -/
theorem outcome_withGroup (state : Assembly) {group : Group}
    (hgroup : group.tree? = state.group.tree?) {back : List Token}
    (hnext : ∀ next ∈ back.head?,
      next.kind = .closing ∨ (state.withGroup group).read next = state.read next) :
    (state.withGroup group).outcome back = state.outcome back := by
  cases back with
  | nil => exact Prod.ext (state.tree?_withGroup hgroup) rfl
  | cons next rest =>
    have hread : (state.withGroup group).read next = state.read next := by
      rcases hnext next rfl with hclosing | hread
      · exact state.read_closing_congr hgroup hclosing
      · exact hread
    rw [outcome, outcome, List.foldl_cons, List.foldl_cons, hread]

/-- Under the same condition, the group makes no difference to the tree. -/
theorem tree?_foldl_read_withGroup (state : Assembly) {group : Group}
    (hgroup : group.tree? = state.group.tree?) {back : List Token}
    (hnext : ∀ next ∈ back.head?,
      next.kind = .closing ∨ (state.withGroup group).read next = state.read next) :
    (back.foldl read (state.withGroup group)).tree? = (back.foldl read state).tree? :=
  congrArg Prod.fst (state.outcome_withGroup hgroup hnext)

/-- A closing parenthesis at the end ends what the end of the input would have ended. -/
theorem tree?_read_closing (state : Assembly) {token : Token} (h : token.kind = .closing) :
    (state.read token).tree? = state.tree? := by
  cases henclosing : state.enclosing with
  | nil =>
    have houtermost : state.outermost = state.group := by
      rw [outermost, henclosing, List.foldl_nil]
    rw [read_of_stray state h henclosing, tree?, tree?, houtermost, strayed, outermost, henclosing]
    rfl
  | cons outer rest =>
    rw [read_of_closing state h henclosing, tree?, tree?, outermost, outermost, henclosing]
    rfl

/-- Closing parentheses at the end change nothing. -/
theorem tree?_foldl_read_closings {closings : List Token}
    (h : ∀ token ∈ closings, token.kind = .closing) (state : Assembly) :
    (closings.foldl read state).tree? = state.tree? := by
  induction closings generalizing state with
  | nil => rfl
  | cons token closings ih =>
    obtain ⟨htoken, hclosings⟩ := List.forall_mem_cons.1 h
    rw [List.foldl_cons, ih hclosings, tree?_read_closing state htoken]

end Assembly

/-! ### Deletions -/

/-- Tokens, and what is left of them when one part that says nothing is deleted. -/
inductive Token.Tidied : List Token → List Token → Prop
  /-- A conjunction sign says no more than standing side by side. -/
  | and {front back : List Token} {sign : Token} (kind : sign.kind = .and)
      (unsigned : EndsUnsigned front) : Tidied (front ++ sign :: back) (front ++ back)
  /-- Two negation signs in a row cancel out. -/
  | negations {front back : List Token} {first second : Token} (left : first.kind = .not)
      (right : second.kind = .not) : Tidied (front ++ first :: second :: back) (front ++ back)
  /-- A negation sign has no operand if another operator, a closing parenthesis or the end follows.
  -/
  | not {front back : List Token} {sign : Token} (kind : sign.kind = .not)
      (dangling : ∀ next ∈ back.head?,
        next.kind = .and ∨ next.kind = .or ∨ next.kind = .closing) :
      Tidied (front ++ sign :: back) (front ++ back)
  /-- A disjunction sign at the beginning has nothing before it. -/
  | leadingOr {back : List Token} {sign : Token} (kind : sign.kind = .or) :
      Tidied (sign :: back) back
  /-- A disjunction sign has nothing after it if another one, a closing parenthesis or the end
  follows. -/
  | or {front back : List Token} {sign : Token} (kind : sign.kind = .or)
      (dangling : ∀ next ∈ back.head?, next.kind = .or ∨ next.kind = .closing) :
      Tidied (front ++ sign :: back) (front ++ back)
  /-- A phrase without words is nothing, and neither are all the negation signs before it. -/
  | phrase {front signs back : List Token} {token : Token} (unsigned : EndsUnsigned front)
      (run : ∀ sign ∈ signs, sign.kind = .not) (kind : token.kind = .phrase []) :
      Tidied (front ++ (signs ++ token :: back)) (front ++ back)
  /-- A group without tokens is nothing, and neither are all the negation signs before it. -/
  | group {front signs back : List Token} {opening closing : Token} (unsigned : EndsUnsigned front)
      (run : ∀ sign ∈ signs, sign.kind = .not) (left : opening.kind = .opening)
      (right : closing.kind = .closing)
      (room : (Assembly.ofTokens front).enclosing.length < maxDepth) :
      Tidied (front ++ (signs ++ opening :: closing :: back)) (front ++ back)
  /-- Closing parentheses at the end end what ends there anyway. -/
  | closings {front closings : List Token} (kind : ∀ token ∈ closings, token.kind = .closing) :
      Tidied (front ++ closings) front

namespace Tree

theorem ofTokens?_append (front back : List Token) :
    ofTokens? (front ++ back) = (back.foldl Assembly.read (Assembly.ofTokens front)).tree? := by
  rw [ofTokens?, Assembly.ofTokens_append]

/-- Tokens that add nothing to what is open before them can be deleted with all negation signs right
before them. -/
theorem ofTokens?_forgotten {front signs : List Token} (unsigned : Token.EndsUnsigned front)
    (run : ∀ sign ∈ signs, sign.kind = .not) (forgotten back : List Token)
    (h : ∀ group, forgotten.foldl Assembly.read ((Assembly.ofTokens front).withGroup group) =
      (Assembly.ofTokens front).withGroup (group.add none)) :
    ofTokens? (front ++ (signs ++ (forgotten ++ back))) = ofTokens? (front ++ back) := by
  rw [ofTokens?_append, ofTokens?_append,
    Assembly.foldl_read_forgotten _ (Assembly.negated_ofTokens unsigned) run forgotten back h]

/-- Closing parentheses at the end of a query change nothing. -/
theorem ofTokens?_append_closings {closings : List Token}
    (h : ∀ token ∈ closings, token.kind = .closing) (front : List Token) :
    ofTokens? (front ++ closings) = ofTokens? front := by
  rw [ofTokens?_append, Assembly.tree?_foldl_read_closings h, ofTokens?]

/-- One deletion does not change the tree. -/
theorem ofTokens?_of_tidied {tokens tidy : List Token} (h : Token.Tidied tokens tidy) :
    ofTokens? tokens = ofTokens? tidy := by
  cases h with
  | @and front back sign kind unsigned =>
    have hread : (Assembly.ofTokens front).read sign = Assembly.ofTokens front := by
      rw [Assembly.read_of_and _ kind,
        Grammar.add_none_of_negated (Assembly.negated_ofTokens unsigned)]
      rfl
    rw [ofTokens?_append, ofTokens?_append, List.foldl_cons, hread]
  | @negations front back first second left right =>
    rw [ofTokens?_append, ofTokens?_append, List.foldl_cons, List.foldl_cons,
      Assembly.read_of_not _ left, Assembly.read_of_not _ right, Assembly.group_withGroup,
      Group.flip_flip]
    rfl
  | @not front back sign kind dangling =>
    rw [ofTokens?_append, ofTokens?_append, List.foldl_cons, Assembly.read_of_not _ kind]
    -- An operator forgets the sign, and so does what ends the group, which takes its tree only.
    refine Assembly.tree?_foldl_read_withGroup _ (Group.tree?_flip _) fun next hnext => ?_
    rcases dangling next hnext with hand | hor | hclosing
    · refine Or.inr ?_
      rw [Assembly.read_of_and _ hand, Assembly.read_of_and _ hand]
      rfl
    · refine Or.inr ?_
      rw [Assembly.read_of_or _ hor, Assembly.read_of_or _ hor]
      rfl
    · exact Or.inl hclosing
  | leadingOr kind =>
    rw [ofTokens?, Assembly.ofTokens, List.foldl_cons, Assembly.read_of_or _ kind]
    rfl
  | @or front back sign kind dangling =>
    rw [ofTokens?_append, ofTokens?_append, List.foldl_cons, Assembly.read_of_or _ kind]
    refine Assembly.tree?_foldl_read_withGroup _ (Group.tree?_endDisjunct _) fun next hnext => ?_
    rcases dangling next hnext with hor | hclosing
    · refine Or.inr ?_
      rw [Assembly.read_of_or _ hor, Assembly.read_of_or _ hor, Assembly.group_withGroup,
        Group.endDisjunct_endDisjunct]
      rfl
    · exact Or.inl hclosing
  | @phrase front signs back token unsigned run kind =>
    refine ofTokens?_forgotten unsigned run [token] back fun group => ?_
    rw [List.foldl_cons, List.foldl_nil, Assembly.read_of_phrase _ kind,
      Token.leaf?_of_phrase kind]
    rfl
  | @group front signs back opening closing unsigned run left right room =>
    refine ofTokens?_forgotten unsigned run [opening, closing] back fun group => ?_
    rw [List.foldl_cons, List.foldl_cons, List.foldl_nil,
      ((Assembly.ofTokens front).withGroup group).read_of_opening left room]
    exact Assembly.read_of_closing _ right rfl
  | closings kind => exact ofTokens?_append_closings kind _

/-- Tokens that say nothing can be deleted, one part after another, without a change to the tree. -/
theorem ofTokens?_tidied {tokens tidy : List Token}
    (h : Relation.ReflTransGen Token.Tidied tokens tidy) :
    ofTokens? tokens = ofTokens? tidy := by
  induction h with
  | refl => rfl
  | tail _ hstep ih => rw [ih, ofTokens?_of_tidied hstep]

/-- The tokens of `| !!a !& !!() b !"" | )`. -/
def malformed : List Token :=
  [⟨.or, "|", 0⟩, ⟨.not, "!", 2⟩, ⟨.not, "!", 3⟩, ⟨.word, "a", 4⟩, ⟨.not, "!", 6⟩, ⟨.and, "&", 7⟩,
    ⟨.not, "!", 9⟩, ⟨.not, "!", 10⟩, ⟨.opening, "(", 11⟩, ⟨.closing, ")", 12⟩, ⟨.word, "b", 14⟩,
    ⟨.not, "!", 16⟩, ⟨.phrase [], "\"\"", 17⟩, ⟨.or, "|", 20⟩, ⟨.closing, ")", 22⟩]

/-- All kinds of parts that say nothing around two words. -/
theorem ofTokens?_tidied_of_each_kind :
    Relation.ReflTransGen Token.Tidied malformed [⟨.word, "a", 4⟩, ⟨.word, "b", 14⟩] ∧
      ofTokens? malformed = some (.and [.term "a", .term "b"]) := by
  have hchain : Relation.ReflTransGen Token.Tidied malformed
      [⟨.word, "a", 4⟩, ⟨.word, "b", 14⟩] := by
    refine .head (.leadingOr rfl) ?_
    refine .head (@Token.Tidied.negations [] _ _ _ rfl rfl) ?_
    refine .head (@Token.Tidied.not [_] _ _ rfl (by decide)) ?_
    refine .head (@Token.Tidied.and [_] _ _ rfl (by decide)) ?_
    refine .head (@Token.Tidied.group [_] [_, _] _ _ _ (by decide) (by decide) rfl rfl
      (by decide)) ?_
    refine .head (@Token.Tidied.phrase [_, _] [_] _ _ (by decide) (by decide) rfl) ?_
    refine .head (@Token.Tidied.or [_, _] _ _ rfl (by decide)) ?_
    exact .single (@Token.Tidied.closings [_, _] _ (by decide))
  exact ⟨hchain, (ofTokens?_tidied hchain).trans rfl⟩

end Tree

end TsQuery
