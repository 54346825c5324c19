import Mathlib.Data.List.Basic
import TsQuery.Query.Assembly

/-!
# What reading a token does

All that `Assembly.read` can do is in `Assembly.read_cases`, with the condition under which it does
it; the proofs of later files go by these cases and do not open the definition.  Words and phrases
are one case, since reading them adds the leaf that they stand for (`Token.leaf?`).
-/

namespace TsQuery

/-! ### Leaves of tokens -/

namespace Token

/-- The leaf that a token stands for.  A phrase of one word is a term, and a phrase without words is
nothing at all. -/
def leaf? (token : Token) : Option Tree :=
  match token.kind with
  | .word => some (.term token.text)
  | .phrase [] => none
  | .phrase [word] => some (.term word)
  | .phrase words => some (.phrase words)
  | _ => none

theorem leaf?_of_word {token : Token} (h : token.kind = .word) :
    token.leaf? = some (.term token.text) := by
  rw [leaf?, h]

theorem leaf?_of_phrase {token : Token} {words : List Text} (h : token.kind = .phrase words) :
    token.leaf? = Tree.ofPhrase? words := by
  rw [leaf?, h]
  rcases words with _ | ⟨word, _ | ⟨next, more⟩⟩
  · rfl
  · rfl
  · rfl

/-- A leaf is a term or a phrase of two or more words. -/
theorem leaf?_eq_some {token : Token} {leaf : Tree} (h : token.leaf? = some leaf) :
    (∃ word, leaf = .term word) ∨ ∃ words, leaf = .phrase words ∧ 2 ≤ words.length := by
  unfold leaf? at h
  split at h
  · exact Or.inl ⟨_, (Option.some.inj h).symm⟩
  · cases h
  · exact Or.inl ⟨_, (Option.some.inj h).symm⟩
  · next words hnil hsingle _ =>
    refine Or.inr ⟨words, (Option.some.inj h).symm, ?_⟩
    rcases words with _ | ⟨word, _ | ⟨next, more⟩⟩
    · exact absurd rfl hnil
    · exact absurd rfl (hsingle word)
    · exact Nat.le_add_left 2 more.length
  · cases h

/-- A token stands for no leaf unless it is a word or a phrase with words. -/
theorem leaf?_eq_none_iff (token : Token) :
    token.leaf? = none ↔
      ¬(token.kind = .word ∨ ∃ words, words ≠ [] ∧ token.kind = .phrase words) := by
  unfold leaf?
  split <;> simp_all

/-- Operators and parentheses stand for no leaf. -/
theorem leaf?_eq_none_of_kind {token : Token} {kind : TokenKind} (h : token.kind = kind)
    (hword : kind ≠ .word) (hphrase : ∀ words, kind ≠ .phrase words) : token.leaf? = none := by
  rw [leaf?_eq_none_iff, h]
  rintro (hkind | ⟨words, -, hkind⟩)
  · exact hword hkind
  · exact hphrase words hkind

end Token

/-! ### Steps -/

/-- A group with one more negation sign read. -/
def Group.flip (group : Group) : Group :=
  { group with negated := !group.negated }

namespace Group

/-- No negation is pending after an operand, or after what forgets a negation. -/
@[simp] theorem negated_add (group : Group) (operand : Option Tree) :
    (group.add operand).negated = false := by
  cases operand with
  | none => rfl
  | some tree => rfl

@[simp] theorem negated_endDisjunct (group : Group) : group.endDisjunct.negated = false := by
  unfold endDisjunct
  split
  · rfl
  · rfl

@[simp] theorem negated_flip (group : Group) : group.flip.negated = !group.negated := rfl

end Group

namespace Assembly

/-- A state with another group being read. -/
def withGroup (state : Assembly) (group : Group) : Assembly :=
  { state with group }

@[simp] theorem group_withGroup (state : Assembly) (group : Group) :
    (state.withGroup group).group = group := rfl

@[simp] theorem enclosing_withGroup (state : Assembly) (group : Group) :
    (state.withGroup group).enclosing = state.enclosing := rfl

@[simp] theorem withGroup_withGroup (state : Assembly) (first second : Group) :
    (state.withGroup first).withGroup second = state.withGroup second := rfl

/-- A state in which a group has been opened. -/
def opened (state : Assembly) : Assembly :=
  { state with group := {}, enclosing := state.group :: state.enclosing }

/-- A state in which the group being read has ended in the group around it. -/
def closed (state : Assembly) (outer : Group) (rest : List Group) : Assembly :=
  { state with group := outer.add state.group.tree?, enclosing := rest }

/-- A state in which a stray parenthesis has ended the outermost disjunction. -/
def strayed (state : Assembly) (token : Token) : Assembly :=
  { state with
    ended := state.group.tree?.toList ++ state.ended
    group := {}
    strays := token :: state.strays }

theorem read_of_word (state : Assembly) {token : Token} (h : token.kind = .word) :
    state.read token = state.withGroup (state.group.add token.leaf?) := by
  rw [read, h, Token.leaf?_of_word h]
  rfl

theorem read_of_phrase (state : Assembly) {token : Token} {words : List Text}
    (h : token.kind = .phrase words) :
    state.read token = state.withGroup (state.group.add token.leaf?) := by
  rw [read, h, Token.leaf?_of_phrase h]
  rfl

theorem read_of_and (state : Assembly) {token : Token} (h : token.kind = .and) :
    state.read token = state.withGroup (state.group.add none) := by
  rw [read, h]
  rfl

theorem read_of_or (state : Assembly) {token : Token} (h : token.kind = .or) :
    state.read token = state.withGroup state.group.endDisjunct := by
  rw [read, h]
  rfl

theorem read_of_not (state : Assembly) {token : Token} (h : token.kind = .not) :
    state.read token = state.withGroup state.group.flip := by
  rw [read, h]
  rfl

theorem read_of_opening (state : Assembly) {token : Token} (h : token.kind = .opening)
    (hroom : state.enclosing.length < maxDepth) : state.read token = state.opened := by
  rw [read, h]
  exact if_pos hroom

theorem read_of_opening_of_full (state : Assembly) {token : Token} (h : token.kind = .opening)
    (hfull : maxDepth ≤ state.enclosing.length) :
    state.read token = state.withGroup (state.group.add none) := by
  rw [read, h]
  exact if_neg (Nat.not_lt.2 hfull)

theorem read_of_closing (state : Assembly) {token : Token} (h : token.kind = .closing)
    {outer : Group} {rest : List Group} (henclosing : state.enclosing = outer :: rest) :
    state.read token = state.closed outer rest := by
  rw [read, h]
  simp only [henclosing]
  rfl

theorem read_of_stray (state : Assembly) {token : Token} (h : token.kind = .closing)
    (henclosing : state.enclosing = []) : state.read token = state.strayed token := by
  rw [read, h]
  simp only [henclosing]
  rw [strayed, henclosing]

/-- What reading a token can do.  A word or phrase adds its leaf; a conjunction sign forgets a
pending negation, and so does an opening parenthesis that there is no room for. -/
@[elab_as_elim]
theorem read_cases {motive : Assembly → Prop} (state : Assembly) (token : Token)
    (operand : token.isOperand = true →
      motive (state.withGroup (state.group.add token.leaf?)))
    (forget : token.leaf? = none → motive (state.withGroup (state.group.add none)))
    (or : token.leaf? = none → motive (state.withGroup state.group.endDisjunct))
    (not : token.leaf? = none → motive (state.withGroup state.group.flip))
    (opening : token.leaf? = none → state.enclosing.length < maxDepth → motive state.opened)
    (closing : token.leaf? = none → ∀ outer rest, state.enclosing = outer :: rest →
      motive (state.closed outer rest))
    (stray : token.leaf? = none → state.enclosing = [] → motive (state.strayed token)) :
    motive (state.read token) := by
  cases hkind : token.kind with
  | word =>
    rw [read_of_word state hkind]
    exact operand (by rw [Token.isOperand, hkind])
  | phrase words =>
    rw [read_of_phrase state hkind]
    exact operand (by rw [Token.isOperand, hkind])
  | and =>
    rw [read_of_and state hkind]
    exact forget (Token.leaf?_eq_none_of_kind hkind nofun nofun)
  | or =>
    rw [read_of_or state hkind]
    exact or (Token.leaf?_eq_none_of_kind hkind nofun nofun)
  | not =>
    rw [read_of_not state hkind]
    exact not (Token.leaf?_eq_none_of_kind hkind nofun nofun)
  | opening =>
    have hleaf := Token.leaf?_eq_none_of_kind hkind nofun nofun
    rcases Nat.lt_or_ge state.enclosing.length maxDepth with hroom | hfull
    · rw [read_of_opening state hkind hroom]
      exact opening hleaf hroom
    · rw [read_of_opening_of_full state hkind hfull]
      exact forget hleaf
  | closing =>
    have hleaf := Token.leaf?_eq_none_of_kind hkind nofun nofun
    cases henclosing : state.enclosing with
    | nil =>
      rw [read_of_stray state hkind henclosing]
      exact stray hleaf henclosing
    | cons outer rest =>
      rw [read_of_closing state hkind henclosing]
      exact closing hleaf outer rest henclosing

end Assembly

end TsQuery
