import Mathlib.Algebra.Group.Nat.Even
import TsQuery.Proofs.Assembly.Nested
import TsQuery.Proofs.Assembly.Tolerance

/-!
# Groups beyond the limit

With as many groups open as can be, an opening parenthesis opens none.  It is ignored, and so are
all negation signs right before it.  Its closing parenthesis is not: that one ends the innermost
group that is open, and what follows belongs to the group around that (`Tree.ofTokens?_full`).
Hence a pair of parentheses beyond the limit can be deleted if the signs before it cancel out and
nothing but closing parentheses follows it, and not in general.
-/

namespace TsQuery

/-- Balanced tokens stay balanced with further pairs of parentheses around all of them. -/
theorem Token.Nested.parenthesized {depth : Nat} {tokens : List Token} (h : Nested depth tokens)
    {opening closing : Token} (left : opening.kind = .opening) (right : closing.kind = .closing)
    (pairs : Nat) :
    Nested (depth + pairs)
      (List.replicate pairs opening ++ (tokens ++ List.replicate pairs closing)) := by
  induction pairs with
  | zero =>
    rw [List.replicate_zero, List.replicate_zero, List.append_nil]
    exact h
  | succ pairs ih =>
    rw [List.replicate_succ, List.replicate_succ', ← List.append_assoc tokens, List.cons_append,
      ← List.append_assoc]
    exact .group left right ih (.nil _)

namespace Tree

/-- An opening parenthesis beyond the limit is ignored, and so are all negation signs before it. -/
theorem ofTokens?_opening_of_full {front signs : List Token} {opening : Token}
    (hfront : Token.EndsUnsigned front) (hsigns : ∀ sign ∈ signs, sign.kind = .not)
    (hopening : opening.kind = .opening)
    (hfull : maxDepth ≤ (Assembly.ofTokens front).enclosing.length) (back : List Token) :
    ofTokens? (front ++ (signs ++ opening :: back)) = ofTokens? (front ++ back) := by
  refine ofTokens?_forgotten hfront hsigns [opening] back fun group => ?_
  exact ((Assembly.ofTokens front).withGroup group).read_of_opening_of_full hopening hfull

/-- An even number of negation signs in a row cancels out. -/
theorem ofTokens?_signs_of_even {signs : List Token} (hsigns : ∀ sign ∈ signs, sign.kind = .not)
    (heven : Even signs.length) (front back : List Token) :
    ofTokens? (front ++ (signs ++ back)) = ofTokens? (front ++ back) := by
  have hgroup : Grammar.afterSigns (Assembly.ofTokens front).group signs.length =
      (Assembly.ofTokens front).group := by
    rw [Grammar.afterSigns, Nat.even_iff.1 heven]
    rfl
  rw [ofTokens?_append, ofTokens?_append, List.foldl_append, Assembly.foldl_read_signs hsigns,
    hgroup]
  rfl

/-- Of a pair of parentheses beyond the limit, the opening one is ignored together with all negation
signs right before it, and the closing one is read like any other.  That is to delete the pair if
the signs cancel out and closing parentheses are all that follows. -/
theorem ofTokens?_full {front signs inner back : List Token} {opening closing : Token}
    (hfront : Token.EndsUnsigned front) (hsigns : ∀ sign ∈ signs, sign.kind = .not)
    (hopening : opening.kind = .opening) (hclosing : closing.kind = .closing)
    (hfull : maxDepth ≤ (Assembly.ofTokens front).enclosing.length) :
    ofTokens? (front ++ (signs ++ opening :: (inner ++ closing :: back))) =
        ofTokens? (front ++ (inner ++ closing :: back)) ∧
      (Even signs.length → (∀ token ∈ back, token.kind = .closing) →
        ofTokens? (front ++ (signs ++ opening :: (inner ++ closing :: back))) =
          ofTokens? (front ++ (signs ++ (inner ++ back)))) := by
  have hignored := ofTokens?_opening_of_full hfront hsigns hopening hfull (inner ++ closing :: back)
  refine ⟨hignored, fun heven hback => ?_⟩
  have hclosings : ∀ token ∈ closing :: back, token.kind = .closing :=
    List.forall_mem_cons.2 ⟨hclosing, hback⟩
  calc ofTokens? (front ++ (signs ++ opening :: (inner ++ closing :: back)))
      = ofTokens? (front ++ (inner ++ closing :: back)) := hignored
    _ = ofTokens? (front ++ inner) := by
        rw [← List.append_assoc, ofTokens?_append_closings hclosings]
    _ = ofTokens? (front ++ (inner ++ back)) := by
        rw [← List.append_assoc, ofTokens?_append_closings hback]
    _ = ofTokens? (front ++ (signs ++ (inner ++ back))) :=
        (ofTokens?_signs_of_even hsigns heven front (inner ++ back)).symm

/-- As many opening parentheses as there can be open groups. -/
def allOpened : List Token :=
  List.replicate maxDepth ⟨.opening, "(", 0⟩

/-- The closing parentheses of as many groups as there can be. -/
def allClosed : List Token :=
  List.replicate maxDepth ⟨.closing, ")", 0⟩

/-- The innermost parentheses of `(( … (a | !!(b | c)) … ))` are beyond the limit. -/
theorem ofTokens?_full_of_two_signs :
    maxDepth ≤ (Assembly.ofTokens
        (allOpened ++ [⟨.word, "a", 0⟩, ⟨.or, "|", 0⟩])).enclosing.length ∧
      ofTokens? (allOpened ++ [⟨.word, "a", 0⟩, ⟨.or, "|", 0⟩] ++
          ([⟨.not, "!", 0⟩, ⟨.not, "!", 0⟩] ++ ⟨.opening, "(", 0⟩ ::
            ([⟨.word, "b", 0⟩, ⟨.or, "|", 0⟩, ⟨.word, "c", 0⟩] ++
              ⟨.closing, ")", 0⟩ :: allClosed))) =
        ofTokens? (allOpened ++ [⟨.word, "a", 0⟩, ⟨.or, "|", 0⟩] ++
          ([⟨.not, "!", 0⟩, ⟨.not, "!", 0⟩] ++
            ([⟨.word, "b", 0⟩, ⟨.or, "|", 0⟩, ⟨.word, "c", 0⟩] ++ allClosed))) := by
  have hfull : maxDepth ≤ (Assembly.ofTokens
      (allOpened ++ [⟨.word, "a", 0⟩, ⟨.or, "|", 0⟩])).enclosing.length := by
    cbv
  have hfront : Token.EndsUnsigned (allOpened ++ [⟨.word, "a", 0⟩, ⟨.or, "|", 0⟩]) := by
    decide
  have hclosings : ∀ token ∈ allClosed, token.kind = .closing := by
    intro token htoken
    rw [List.eq_of_mem_replicate htoken]
  exact ⟨hfull, (ofTokens?_full hfront (by decide) rfl rfl hfull).2 (by decide) hclosings⟩

/-- A pair of parentheses beyond the limit cannot be deleted in general, even where it is the
innermost one and balanced: the negation in `(( … (!(a)) … ))` is lost, and in `(( … (!a) … ))` it
is not. -/
theorem not_forall_ofTokens?_full :
    ¬∀ (depth : Nat) (front inner back : List Token) (opening closing : Token),
      opening.kind = .opening → closing.kind = .closing →
      Token.Nested depth (front ++ back) → Token.Nested depth inner →
      maxDepth ≤ (Assembly.ofTokens front).enclosing.length →
        ofTokens? (front ++ opening :: (inner ++ closing :: back)) =
          ofTokens? (front ++ (inner ++ back)) := by
  intro hall
  have hleaf : ∀ leaf ∈ (⟨.word, "a", 0⟩ : Token).leaf?, leaf.depth ≤ maxDepth := by
    rintro leaf ⟨⟩
    decide
  have hinner : Token.Nested maxDepth [⟨.word, "a", 0⟩] := .flat nofun nofun hleaf (.nil _)
  have hsign : Token.Nested 0 [⟨.not, "!", 0⟩] := .flat nofun nofun nofun (.nil 0)
  have houter : Token.Nested maxDepth (allOpened ++ [⟨.not, "!", 0⟩] ++ allClosed) := by
    rw [List.append_assoc]
    exact hsign.parenthesized rfl rfl maxDepth
  have hfull : maxDepth ≤ (Assembly.ofTokens
      (allOpened ++ [⟨.not, "!", 0⟩])).enclosing.length := by
    cbv
  have hlost : ofTokens? (allOpened ++ [⟨.not, "!", 0⟩] ++ ⟨.opening, "(", 0⟩ ::
      ([⟨.word, "a", 0⟩] ++ ⟨.closing, ")", 0⟩ :: allClosed)) = some (.term "a") := by
    cbv
  have hkept : ofTokens? (allOpened ++ [⟨.not, "!", 0⟩] ++ ([⟨.word, "a", 0⟩] ++ allClosed)) =
      some (.not (.term "a")) := by
    cbv
  have hdeleted := hall _ _ _ _ ⟨.opening, "(", 0⟩ ⟨.closing, ")", 0⟩ rfl rfl houter hinner hfull
  rw [hlost, hkept] at hdeleted
  cases hdeleted

end Tree

end TsQuery
