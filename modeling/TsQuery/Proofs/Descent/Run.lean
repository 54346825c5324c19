import TsQuery.Proofs.Descent.Step

/-!
# A descent from the first token to the last

A descent never breaks off: wherever it takes a token without having looked at it, the calls above
have seen that there is one (`Descent.Follows.exists_step`).  What holds in every state on the way
is collected in `Descent.IsSafe`.  Each step leaves less to do (`Descent.rank`), so that the descent
ends, after a number of steps that is linear in the number of tokens, with every token taken and the
tree that an assembly makes of them (`Descent.run_start_isSafe_and_finishes`).
-/

namespace TsQuery

namespace Descent

/-! ### Every state -/

/-- Whether a waiting level is a group. -/
def Call.isGroup : Call → Bool
  | .group => true
  | _ => false

/-- How many groups are open: those that wait for the disjunction they have called for. -/
def openGroups (state : Descent) : Nat :=
  state.calls.countP Call.isGroup

/-- The number of open groups that a level has been told. -/
def Task.depth? : Task → Option Nat
  | .disjunction depth _ | .conjunction depth _ | .unary depth _ | .primary depth
  | .group depth _ => some depth
  | .query _ | .handing _ => none

/-- What holds in every state of a descent over a sequence of tokens. -/
structure IsSafe (tokens : List Token) (state : Descent) : Prop where
  /-- The cursor has passed each token before its place once, in their order, and no other. -/
  cursor : state.cursor.IsOn tokens
  /-- Only closing parentheses are passed over by the query. -/
  strays : ∀ token ∈ state.strays, token.kind = .closing
  /-- Only an opening parenthesis is taken for the beginning of a group. -/
  group : ∀ depth token, state.task = .group depth token → token.kind = .opening
  /-- A level is told how many groups are open, and there are never more than 32. -/
  depth : ∀ depth ∈ state.task.depth?, depth = state.openGroups ∧ depth ≤ 32

/-- As many groups wait as the assembly has groups around the one being read. -/
theorem Around.countP_isGroup {calls : List Call} {enclosing : List Group} {ended : List Tree}
    (h : Around calls enclosing ended) :
    calls.countP Call.isGroup = enclosing.length ∧ enclosing.length ≤ maxDepth := by
  induction h with
  | query trees => exact ⟨rfl, Nat.zero_le _⟩
  | group disjuncts conjuncts signs around room ih =>
    refine ⟨?_, room⟩
    simp [List.countP_cons, Call.isGroup, ih.1]

/-- The depth that a level has been told is that of its place. -/
theorem Within.depth_spec {depth : Nat} {calls : List Call} {assembly : Assembly}
    (h : Within depth calls assembly) : depth = calls.countP Call.isGroup ∧ depth ≤ 32 := by
  obtain ⟨hcount, hle⟩ := h.around.countP_isGroup
  rw [h.depth_eq, hcount]
  exact ⟨rfl, hle⟩

theorem Stands.depth_spec {next : Option TokenKind} {task : Task} {calls : List Call}
    {assembly : Assembly} (h : Stands next task calls assembly) :
    ∀ depth ∈ task.depth?, depth = calls.countP Call.isGroup ∧ depth ≤ 32 := by
  cases h with
  | disjunction _ hwithin _ => rintro depth ⟨⟩; exact hwithin.depth_spec
  | conjunction _ _ hwithin _ => rintro depth ⟨⟩; exact hwithin.depth_spec
  | unary _ _ _ hwithin _ => rintro depth ⟨⟩; exact hwithin.depth_spec
  | primary _ _ _ hwithin _ _ => rintro depth ⟨⟩; exact hwithin.depth_spec
  | group _ _ _ hwithin _ _ => rintro depth ⟨⟩; exact hwithin.depth_spec
  | _ => nofun

namespace Follows

variable {tokens : List Token} {state : Descent} {assembly : Assembly}

theorem isSafe (h : Follows tokens state assembly) : state.IsSafe tokens where
  cursor := h.cursor
  strays := h.closing
  group depth token htask := by
    obtain ⟨cursor, task, calls, strays⟩ := state
    cases htask
    cases h.stands with
    | group _ _ _ _ _ hkind => exact hkind
  depth := h.stands.depth_spec

end Follows

/-! ### Runs -/

/-- Nothing is left to do but to hand over the tree. -/
def IsFinished (state : Descent) : Prop :=
  state.calls = [] ∧ ∃ tree, state.task = .handing tree

theorem follows_start (tokens : List Token) : Follows tokens (start tokens) {} where
  cursor := ⟨rfl, Nat.zero_le _, rfl⟩
  stands := .query [] []
  strays := rfl
  closing := nofun
  outcome := rfl

namespace Follows

variable {tokens : List Token} {state : Descent} {assembly : Assembly}

/-- A descent that is not at its end takes a step towards it. -/
theorem proceeds (h : Follows tokens state assembly) (hfinished : ¬state.IsFinished) :
    Proceeds tokens state := by
  obtain ⟨cursor, task, calls, strays⟩ := state
  cases task with
  | query trees => exact h.proceeds_query
  | disjunction depth trees => exact h.proceeds_disjunction
  | conjunction depth trees => exact h.proceeds_conjunction
  | unary depth signs => exact h.proceeds_unary
  | primary depth => exact h.proceeds_primary
  | group depth token => exact h.proceeds_group
  | handing tree => exact h.proceeds_handing fun hcalls => hfinished ⟨hcalls, tree, rfl⟩

/-- A descent that stands for an assembly has a next state, and that stands for one again. -/
theorem exists_step (h : Follows tokens state assembly) :
    ∃ next assembly', state.step = some next ∧ next.Follows tokens assembly' := by
  by_cases hfinished : state.IsFinished
  · obtain ⟨hcalls, tree, htask⟩ := hfinished
    refine ⟨state, assembly, ?_, h⟩
    simp only [step, htask, hcalls]
  · obtain ⟨next, assembly', hstep, hnext, -⟩ := h.proceeds hfinished
    exact ⟨next, assembly', hstep, hnext⟩

/-- No number of steps makes a descent break off. -/
theorem exists_run (h : Follows tokens state assembly) (steps : Nat) :
    ∃ next assembly', state.run steps = some next ∧ next.Follows tokens assembly' := by
  induction steps generalizing state assembly with
  | zero => exact ⟨state, assembly, rfl, h⟩
  | succ steps ih =>
    obtain ⟨next, assembly', hstep, hnext⟩ := h.exists_step
    obtain ⟨last, assembly'', hrun, hlast⟩ := ih hnext
    refine ⟨last, assembly'', ?_, hlast⟩
    rw [run, hstep, Option.bind_some, hrun]

/-- A descent comes to its end in no more steps than its rank. -/
theorem exists_run_isFinished (h : Follows tokens state assembly) :
    ∃ steps ≤ state.rank, ∃ last assembly', state.run steps = some last ∧
      last.Follows tokens assembly' ∧ last.IsFinished := by
  -- The induction is on the rank, which every step before the end makes smaller.
  induction hrank : state.rank using Nat.strongRecOn generalizing state assembly with
  | ind rank ih =>
    by_cases hfinished : state.IsFinished
    · exact ⟨0, Nat.zero_le _, state, assembly, rfl, h, hfinished⟩
    · obtain ⟨next, assembly', hstep, hnext, hless⟩ := h.proceeds hfinished
      obtain ⟨steps, hsteps, last, assembly'', hrun, hlast⟩ := ih _ (hrank ▸ hless) hnext rfl
      refine ⟨steps + 1, by omega, last, assembly'', ?_, hlast⟩
      rw [run, hstep, Option.bind_some, hrun]

/-- At the end all tokens have been taken, and the tree and the strays are those of an assembly. -/
theorem of_isFinished (h : Follows tokens state assembly) (hfinished : state.IsFinished) :
    state.task = .handing (Tree.ofTokens? tokens) ∧ state.cursor.taken.reverse = tokens ∧
      state.strays = (Assembly.ofTokens tokens).strays := by
  obtain ⟨hcalls, tree, htask⟩ := hfinished
  have hstands := h.stands
  rw [hcalls, htask] at hstands
  obtain ⟨hjoined, hends⟩ : assembly.tree? = tree ∧ state.cursor.next? = none := by
    cases hstands with
    | inner haround _ _ => cases haround
    | whole hjoined hends => exact ⟨hjoined, hends⟩
  have hunread := Cursor.unread_eq_nil hends
  have houtcome := h.outcome
  rw [hunread] at houtcome
  have htree : assembly.tree? = Tree.ofTokens? tokens := congrArg Prod.fst houtcome
  have hstrays : assembly.strays = (Assembly.ofTokens tokens).strays :=
    congrArg Prod.snd houtcome
  refine ⟨?_, ?_, h.strays.trans hstrays⟩
  · rw [htask, ← hjoined, htree]
  · rw [Cursor.unread, List.drop_eq_nil_iff, h.cursor.tokens_eq] at hunread
    rw [h.cursor.taken, List.take_of_length_le hunread]

end Follows

/-- Over any sequence of tokens a descent never breaks off, and in every state on the way it has
taken each token before its cursor once and in order, has passed over closing parentheses only,
takes only an opening parenthesis for the beginning of a group, and tells each level how many groups
are open, which are never more than 32.  It ends, after a number of steps that is linear in the
number of tokens, with every token taken, the tree of the tokens and their stray parentheses. -/
theorem run_start_isSafe_and_finishes (tokens : List Token) :
    (∀ steps, ∃ state, (start tokens).run steps = some state ∧ state.IsSafe tokens) ∧
      ∃ steps ≤ 13 * tokens.length + 12, ∃ state, (start tokens).run steps = some state ∧
        state.calls = [] ∧ state.task = .handing (Tree.ofTokens? tokens) ∧
        state.cursor.taken.reverse = tokens ∧
        state.strays = (Assembly.ofTokens tokens).strays := by
  have hstart := follows_start tokens
  refine ⟨fun steps => ?_, ?_⟩
  · obtain ⟨state, assembly, hrun, hfollows⟩ := hstart.exists_run steps
    exact ⟨state, hrun, hfollows.isSafe⟩
  · have hrank : (start tokens).rank ≤ 13 * tokens.length + 12 := by
      have hweight := (Task.query []).weight_le (start tokens).cursor.next?
      exact Nat.add_le_add_left hweight _
    obtain ⟨steps, hsteps, state, assembly, hrun, hfollows, hfinished⟩ :=
      hstart.exists_run_isFinished
    obtain ⟨htask, htaken, hstrays⟩ := hfollows.of_isFinished hfinished
    exact ⟨steps, Nat.le_trans hsteps hrank, state, hrun, hfinished.1, htask, htaken, hstrays⟩

/-- The tokens of `!a (b | c)) d`, whose second closing parenthesis is passed over. -/
example : ((start [⟨.not, "!", 0⟩, ⟨.word, "a", 1⟩, ⟨.opening, "(", 3⟩, ⟨.word, "b", 4⟩,
    ⟨.or, "|", 6⟩, ⟨.word, "c", 8⟩, ⟨.closing, ")", 9⟩, ⟨.closing, ")", 10⟩,
    ⟨.word, "d", 12⟩]).run 60).map (fun state => (state.task, state.strays)) =
      some (.handing (some (.and [.not (.term "a"), .or [.term "b", .term "c"], .term "d"])),
        [⟨.closing, ")", 10⟩]) := by
  rfl

end Descent

end TsQuery
