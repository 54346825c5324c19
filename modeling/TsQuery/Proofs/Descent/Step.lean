import TsQuery.Proofs.Descent.Standing

/-!
# One step of a descent

Every step of a descent is possible where it stands, leads to where it stands for an assembly again
and leaves less to do (`Descent.Proceeds`).  There is one lemma for each level, and one more for a
tree that is handed back; each of them shows either that the descent stays at its token
(`Descent.Follows.stay`) or that it takes this token as the assembly reads it
(`Descent.Follows.take`).

The work that is left is counted by the unread tokens, the task and the calls that wait.
-/

namespace TsQuery

namespace Descent

/-! ### What is left to do -/

/-- What a task adds to the steps that are left, given the kind of the next token. -/
def Task.weight (next : Option TokenKind) : Task → Nat
  | .query _ => if next = none then 6 else 12
  | .disjunction _ _ => 9
  | .conjunction _ _ => 6
  | .unary _ _ => if endsConjunction next ∨ next = some .and then 6 else 3
  | .primary _ => 0
  | .group _ _ => 12
  | .handing _ => 5

theorem Task.weight_le (next : Option TokenKind) (task : Task) : task.weight next ≤ 12 := by
  cases task with
  | query trees => rw [weight]; split <;> decide
  | unary depth signs => rw [weight]; split <;> decide
  | _ => simp [weight]

/-- A bound on the steps that are left. -/
def rank (state : Descent) : Nat :=
  13 * state.cursor.unread.length + state.task.weight state.cursor.next? + 2 * state.calls.length

/-- A state has a next one, which has less left to do. -/
def Proceeds (tokens : List Token) (state : Descent) : Prop :=
  ∃ next assembly, state.step = some next ∧ next.Follows tokens assembly ∧ next.rank < state.rank

/-! ### Steps -/

namespace Follows

variable {tokens : List Token} {cursor : Cursor} {task : Task} {calls : List Call}
  {strays : List Token} {assembly : Assembly}

/-- A step that takes no token. -/
theorem stay (h : Follows tokens ⟨cursor, task, calls, strays⟩ assembly) {task' : Task}
    {calls' : List Call} {assembly' : Assembly}
    (hstep : step ⟨cursor, task, calls, strays⟩ = some ⟨cursor, task', calls', strays⟩)
    (hstands : Stands cursor.next? task' calls' assembly')
    (hstrays : assembly'.strays = assembly.strays)
    (houtcome : assembly'.outcome cursor.unread = assembly.outcome cursor.unread)
    (hrank : task'.weight cursor.next? + 2 * calls'.length <
      task.weight cursor.next? + 2 * calls.length) :
    Proceeds tokens ⟨cursor, task, calls, strays⟩ := by
  refine ⟨_, assembly', hstep, ⟨h.cursor, hstands, h.strays.trans hstrays.symm, h.closing,
    houtcome.trans h.outcome⟩, ?_⟩
  simp only [rank]
  omega

/-- A step that takes the next token. -/
theorem take (h : Follows tokens ⟨cursor, task, calls, strays⟩ assembly) {token : Token}
    {after : Cursor} (hhands : cursor.Hands token after) {assembly' : Assembly}
    (hread : assembly.read token = assembly') {task' : Task} {calls' : List Call}
    {strays' : List Token}
    (hstep : step ⟨cursor, task, calls, strays⟩ = some ⟨after, task', calls', strays'⟩)
    (hstands : Stands after.next? task' calls' assembly') (hstrays : strays' = assembly'.strays)
    (hcalls : calls'.length ≤ calls.length) :
    Proceeds tokens ⟨cursor, task, calls, strays⟩ := by
  refine ⟨_, assembly', hstep, ⟨hhands.isOn tokens h.cursor, hstands, hstrays, ?_, ?_⟩, ?_⟩
  · rw [hstrays, ← hread]
    rcases assembly.strays_read token with hsame | ⟨hkind, hstray⟩
    · rw [hsame, ← h.strays]
      exact h.closing
    · rw [hstray, ← h.strays]
      exact List.forall_mem_cons.2 ⟨hkind, h.closing⟩
  · rw [← h.outcome, hhands.unread, ← hread]
    rfl
  · have hweight := task'.weight_le after.next?
    simp only [rank, hhands.unread, List.length_cons]
    omega

theorem proceeds_query {trees : List Tree}
    (h : Follows tokens ⟨cursor, .query trees, calls, strays⟩ assembly) :
    Proceeds tokens ⟨cursor, .query trees, calls, strays⟩ := by
  cases h.stands with
  | query _ _ =>
    cases hnext : cursor.next? with
    | none =>
      refine h.stay ?_ (.whole (tree?_ended trees _) hnext) rfl rfl ?_
      · simp only [step, hnext, handing]
      · simp only [Task.weight, hnext]
        decide
    | some kind =>
      refine h.stay ?_ (.disjunction [] ⟨rfl, .query trees⟩ rfl) rfl rfl ?_
      · simp only [step, hnext, calling, List.length_nil]
      · simp [Task.weight, hnext]

theorem proceeds_disjunction {depth : Nat} {trees : List Tree}
    (h : Follows tokens ⟨cursor, .disjunction depth trees, calls, strays⟩ assembly) :
    Proceeds tokens ⟨cursor, .disjunction depth trees, calls, strays⟩ := by
  cases h.stands with
  | disjunction _ hwithin hgroup =>
    refine h.stay rfl (.conjunction trees [] hwithin hgroup) rfl rfl ?_
    simp only [Task.weight, List.length_cons]
    omega

/-- A conjunction ends before a disjunction sign, a closing parenthesis or the end, passes over its
own sign and takes anything else for the beginning of an operand. -/
theorem proceeds_conjunction {depth : Nat} {trees : List Tree}
    (h : Follows tokens ⟨cursor, .conjunction depth trees, calls, strays⟩ assembly) :
    Proceeds tokens ⟨cursor, .conjunction depth trees, calls, strays⟩ := by
  cases h.stands with
  | conjunction disjuncts _ hwithin hgroup =>
    by_cases hends : endsConjunction cursor.next? = true
    · have hended : (assembly.withGroup assembly.group.endDisjunct).group =
          gathered (disjuncts ++ (combined? Tree.conjunction trees).toList) [] 0 := by
        rw [Assembly.group_withGroup, hgroup, endDisjunct_gathered]
      refine h.stay ?_ (.disjunct disjuncts _ (hwithin.withGroup _) hended hends) rfl ?_ ?_
      · simp only [step, hends, if_true, handing]
      · exact assembly.outcome_endDisjunct fun token htoken => kind_of_ends hends htoken
      · simp only [Task.weight]
        omega
    by_cases hand : cursor.next? = some .and
    · obtain ⟨token, after, hhands, hkind⟩ := Cursor.exists_hands hand
      have hgathered : (assembly.withGroup (assembly.group.add none)).group =
          gathered disjuncts trees 0 := by
        rw [Assembly.group_withGroup, hgroup, add_none_gathered]
      refine h.take hhands (assembly.read_of_and hkind) ?_
        (.conjunction disjuncts trees (hwithin.withGroup _) hgathered) h.strays (Nat.le_refl _)
      simp only [step, hand, taking, hhands.take?, if_true, Option.map_some]
      rfl
    · refine h.stay ?_ (.unary disjuncts trees 0 hwithin hgroup) rfl rfl ?_
      · simp only [step, hends, hand, calling]
        rfl
      · simp only [Task.weight, hends, hand, List.length_cons]
        simp
        omega

/-- Behind negation signs, an operand begins with whatever is no sign and ends no conjunction. -/
theorem proceeds_unary {depth signs : Nat}
    (h : Follows tokens ⟨cursor, .unary depth signs, calls, strays⟩ assembly) :
    Proceeds tokens ⟨cursor, .unary depth signs, calls, strays⟩ := by
  cases h.stands with
  | unary disjuncts conjuncts _ hwithin hgroup =>
    by_cases hnot : cursor.next? = some .not
    · obtain ⟨token, after, hhands, hkind⟩ := Cursor.exists_hands hnot
      have hgathered : (assembly.withGroup assembly.group.flip).group =
          gathered disjuncts conjuncts (signs + 1) := by
        rw [Assembly.group_withGroup, hgroup, flip_gathered]
      refine h.take hhands (assembly.read_of_not hkind) ?_
        (.unary disjuncts conjuncts _ (hwithin.withGroup _) hgathered) h.strays (Nat.le_refl _)
      simp only [step, hnot, taking, hhands.take?, if_true, Option.map_some]
    by_cases hforget : endsConjunction cursor.next? = true ∨ cursor.next? = some .and
    · have hgathered : (assembly.withGroup (assembly.group.add none)).group =
          gathered disjuncts (conjuncts ++ (none : Option Tree).toList) 0 := by
        rw [Assembly.group_withGroup, hgroup, add_none_gathered, Option.toList_none,
          List.append_nil]
      refine h.stay ?_ (.conjunct disjuncts conjuncts none (hwithin.withGroup _) hgathered) rfl
        ?_ ?_
      · simp only [step, hnot, hforget, handing, if_true]
        rfl
      · refine assembly.outcome_add_none fun token htoken => ?_
        rcases hforget with hends | hand
        · exact Or.inr (kind_of_ends hends htoken)
        · rw [Cursor.next?_of_mem_head? htoken] at hand
          exact Or.inl (Option.some.inj hand)
      · simp only [Task.weight, hforget]
        simp
    · have hbegins : BeginsPrimary cursor.next? :=
        beginsPrimary_of_ne (fun hends => hforget (Or.inl hends))
          (fun hand => hforget (Or.inr hand)) hnot
      refine h.stay ?_ (.primary disjuncts conjuncts signs hwithin hgroup hbegins) rfl rfl ?_
      · simp only [step, hnot, hforget, calling]
        rfl
      · simp only [Task.weight, hforget, List.length_cons]
        simp
        omega

/-- A word or a phrase is handed to the signs before it. -/
theorem take_leaf {depth signs : Nat} {disjuncts conjuncts : List Tree}
    (h : Follows tokens ⟨cursor, .primary depth,
      .unary signs :: levels depth disjuncts conjuncts calls, strays⟩ assembly)
    (hwithin : Within depth calls assembly)
    (hgroup : assembly.group = gathered disjuncts conjuncts signs) {token : Token} {after : Cursor}
    (hhands : cursor.Hands token after)
    (hread : assembly.read token = assembly.withGroup (assembly.group.add token.leaf?))
    (hstep : step ⟨cursor, .primary depth, .unary signs :: levels depth disjuncts conjuncts calls,
      strays⟩ = some ⟨after, .handing token.leaf?,
        .unary signs :: levels depth disjuncts conjuncts calls, strays⟩) :
    Proceeds tokens ⟨cursor, .primary depth,
      .unary signs :: levels depth disjuncts conjuncts calls, strays⟩ := by
  have hgathered : (assembly.withGroup (assembly.group.add token.leaf?)).group =
      (gathered disjuncts conjuncts signs).add token.leaf? := by
    rw [Assembly.group_withGroup, hgroup]
  exact h.take hhands hread hstep
    (.operand disjuncts conjuncts signs _ (hwithin.withGroup _) hgathered) h.strays (Nat.le_refl _)

/-- What begins an operand behind its signs is a word, a phrase or an opening parenthesis. -/
theorem proceeds_primary {depth : Nat}
    (h : Follows tokens ⟨cursor, .primary depth, calls, strays⟩ assembly) :
    Proceeds tokens ⟨cursor, .primary depth, calls, strays⟩ := by
  cases h.stands with
  | primary disjuncts conjuncts signs hwithin hgroup hbegins =>
    rcases hbegins with hword | ⟨words, hphrase⟩ | hopening
    · obtain ⟨token, after, hhands, hkind⟩ := Cursor.exists_hands hword
      refine h.take_leaf hwithin hgroup hhands (assembly.read_of_word hkind) ?_
      simp only [step, hhands.take?, Option.map_some, hkind, Token.leaf?_of_word hkind]
    · obtain ⟨token, after, hhands, hkind⟩ := Cursor.exists_hands hphrase
      refine h.take_leaf hwithin hgroup hhands (assembly.read_of_phrase hkind) ?_
      simp only [step, hhands.take?, Option.map_some, hkind, Token.leaf?_of_phrase hkind]
    · obtain ⟨token, after, hhands, hkind⟩ := Cursor.exists_hands hopening
      have hstrays : strays = (assembly.read token).strays := by
        rcases assembly.strays_read token with hsame | ⟨hclosing, -⟩
        · exact h.strays.trans hsame.symm
        · exact absurd (hkind.symm.trans hclosing) nofun
      refine h.take hhands rfl ?_ (.group disjuncts conjuncts signs hwithin hgroup hkind) hstrays
        (Nat.le_refl _)
      simp only [step, hhands.take?, Option.map_some, hkind]

/-- A group is opened unless as many as can be are open. -/
theorem proceeds_group {depth : Nat} {token : Token}
    (h : Follows tokens ⟨cursor, .group depth token, calls, strays⟩ assembly) :
    Proceeds tokens ⟨cursor, .group depth token, calls, strays⟩ := by
  cases h.stands with
  | @group _ calls state disjuncts conjuncts signs hwithin hgroup _ hkind =>
    by_cases hfull : maxDepth ≤ depth
    · have hread := state.read_of_opening_of_full hkind (hwithin.depth_eq ▸ hfull)
      have hgathered : (state.read token).group =
          (gathered disjuncts conjuncts signs).add none := by
        rw [hread, Assembly.group_withGroup, hgroup]
      have hwithin' : Within depth calls (state.read token) := by
        rw [hread]
        exact hwithin.withGroup _
      refine h.stay ?_ (.operand disjuncts conjuncts signs none hwithin' hgathered) rfl rfl ?_
      · simp only [step, hfull, if_true, handing]
      · simp only [Task.weight]
        omega
    · have hroom : state.enclosing.length < maxDepth := by
        rw [← hwithin.depth_eq]
        exact Nat.not_le.1 hfull
      have hread := state.read_of_opening hkind hroom
      refine h.stay ?_ (.disjunction [] (hread ▸ hwithin.opened hgroup hroom) ?_) rfl rfl ?_
      · simp only [step, hfull, if_false, calling]
      · rw [hread]
        rfl
      · simp only [Task.weight, List.length_cons]
        omega

/-- The tree of a disjunction ends a group or goes to the query itself, which passes over a closing
parenthesis then. -/
theorem proceeds_inner {tree : Option Tree}
    (h : Follows tokens ⟨cursor, .handing tree, calls, strays⟩ assembly)
    (haround : Around calls assembly.enclosing assembly.ended)
    (hgroup : assembly.group.tree? = tree)
    (hends : cursor.next? = none ∨ cursor.next? = some .closing) :
    Proceeds tokens ⟨cursor, .handing tree, calls, strays⟩ := by
  obtain ⟨ended, group, enclosing, strays'⟩ := assembly
  dsimp only at haround hgroup
  cases haround with
  | query trees =>
    have hreverse : (trees ++ tree.toList).reverse = group.tree?.toList ++ trees.reverse := by
      rw [List.reverse_append, hgroup]
      cases tree <;> rfl
    rcases hends with hnone | hclosing
    · refine h.stay ?_ (.query (trees ++ tree.toList) strays') rfl ?_ ?_
      · simp only [step, resume, hnone]
      · rw [Cursor.unread_eq_nil hnone, hreverse]
        exact Assembly.outcome_ended ⟨trees.reverse, group, [], strays'⟩ rfl
      · simp [Task.weight, hnone]
    · obtain ⟨token, after, hhands, hkind⟩ := Cursor.exists_hands hclosing
      have hread : Assembly.read ⟨trees.reverse, group, [], strays'⟩ token =
          { ended := (trees ++ tree.toList).reverse, strays := token :: strays' } := by
        rw [Assembly.read_of_stray _ hkind rfl, hreverse]
        rfl
      refine h.take hhands hread ?_ (.query _ _) (congrArg (token :: ·) h.strays) (Nat.zero_le _)
      simp only [step, resume, hclosing, hhands.take?, Option.map_some]
  | @group calls enclosing _ disjuncts conjuncts signs haround hroom =>
    let inside : Assembly :=
      ⟨ended, group, gathered disjuncts conjuncts signs :: enclosing, strays'⟩
    have hgathered : (inside.closed (gathered disjuncts conjuncts signs) enclosing).group =
        (gathered disjuncts conjuncts signs).add tree := by
      rw [← hgroup]
      rfl
    have hwithin : Within enclosing.length calls
        (inside.closed (gathered disjuncts conjuncts signs) enclosing) := ⟨rfl, haround⟩
    rcases hends with hnone | hclosing
    · refine h.stay ?_ (.operand disjuncts conjuncts signs tree hwithin hgathered) rfl ?_ ?_
      · simp only [step, resume, hnone]
        rfl
      · rw [Cursor.unread_eq_nil hnone]
        exact inside.outcome_closed rfl
      · simp only [Task.weight, List.length_cons]
        omega
    · obtain ⟨token, after, hhands, hkind⟩ := Cursor.exists_hands hclosing
      refine h.take hhands (inside.read_of_closing hkind rfl) ?_
        (.operand disjuncts conjuncts signs tree hwithin hgathered) h.strays (Nat.le_succ _)
      simp only [step, resume, hclosing, taking, hhands.take?, if_true, Option.map_some]

/-- A tree is handed to the level that waits for it: an operand gets its signs, a conjunct and a
disjunct are gathered, a group ends in the group around it, and behind the disjunction of the query
itself comes a stray closing parenthesis or nothing. -/
theorem proceeds_handing {tree : Option Tree}
    (h : Follows tokens ⟨cursor, .handing tree, calls, strays⟩ assembly) (hcalls : calls ≠ []) :
    Proceeds tokens ⟨cursor, .handing tree, calls, strays⟩ := by
  cases h.stands with
  | operand disjuncts conjuncts signs _ hwithin hgroup =>
    rw [add_gathered] at hgroup
    refine h.stay rfl (.conjunct disjuncts conjuncts _ hwithin hgroup) rfl rfl ?_
    simp only [Task.weight, List.length_cons]
    omega
  | conjunct disjuncts conjuncts _ hwithin hgroup =>
    refine h.stay rfl (.conjunction disjuncts _ hwithin hgroup) rfl rfl ?_
    simp only [Task.weight, List.length_cons]
    omega
  | disjunct disjuncts _ hwithin hgroup hends =>
    by_cases hor : cursor.next? = some .or
    · obtain ⟨token, after, hhands, hkind⟩ := Cursor.exists_hands hor
      have hgathered : (assembly.withGroup assembly.group.endDisjunct).group =
          gathered (disjuncts ++ tree.toList) [] 0 := by
        rw [Assembly.group_withGroup, hgroup, endDisjunct_gathered]
        simp [combined?]
      refine h.take hhands (assembly.read_of_or hkind) ?_
        (.disjunction _ (hwithin.withGroup _) hgathered) h.strays ?_
      · simp only [step, resume, hor, taking, hhands.take?, if_true, Option.map_some]
      · exact Nat.le_succ _
    · have hends' : cursor.next? = none ∨ cursor.next? = some .closing := by
        rcases (endsConjunction_eq_true_iff _).1 hends with hnone | hor' | hclosing
        · exact Or.inl hnone
        · exact absurd hor' hor
        · exact Or.inr hclosing
      have htree : assembly.group.tree? =
          combined? Tree.disjunction (disjuncts ++ tree.toList) := by
        rw [hgroup, tree?_gathered]
      refine h.stay ?_ (.inner hwithin.around htree hends') rfl rfl ?_
      · simp only [step, resume, hor, handing]
        rfl
      · simp only [Task.weight, List.length_cons]
        omega
  | inner haround hgroup hends => exact h.proceeds_inner haround hgroup hends
  | whole _ _ => exact absurd rfl hcalls

end Follows

end Descent

end TsQuery
