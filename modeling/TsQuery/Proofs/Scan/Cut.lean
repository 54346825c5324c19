import Mathlib.Algebra.Group.Nat.Even
import TsQuery.Proofs.Scan.Words

/-!
# Cutting a text in two

A text is a sequence of phrases, signs, blanks and runs of word characters, and at most one quote
without a partner.  Each of them is scanned by an equation of its own, and `Query.cut_induction` is
induction along them.

Where a text is cut between two of these pieces (`Query.IsCut`), its tokens are those of the first
part and those of the second (`Query.tokensFrom_append`).  Such a place can be told from what stands
on both sides of it: the quotes on the left pair up, or none on the right could close the last of
them, and no run of word characters goes on across the place.  So a blank after an even number of
quotes parts the tokens of a text (`Query.tokens_append_blank`).
-/

namespace TsQuery

/-- A token that stands later in a text. -/
def Token.later (distance : Nat) (token : Token) : Token :=
  { token with position := token.position + distance }

namespace Query

/-! ### Quotes -/

theorem bne_quoteMark {text : Text} (h : quoteMark ∉ text) :
    ∀ c ∈ text, (c != quoteMark) = true := by
  intro c hc
  rw [bne_iff_ne]
  rintro rfl
  exact h hc

/-- The next quote closes a phrase. -/
theorem splitQuote?_append {inside : Text} (h : quoteMark ∉ inside) (rest : Text) :
    splitQuote? (inside ++ quoteMark :: rest) = some (inside, rest) := by
  have hinside := bne_quoteMark h
  have hstop : ¬(quoteMark != quoteMark) = true := by
    rw [bne_self_eq_false]
    decide
  rw [splitQuote?, List.dropWhile_append_of_pos hinside, List.takeWhile_append_of_pos hinside,
    List.dropWhile_cons_of_neg (p := (· != quoteMark)) hstop,
    List.takeWhile_cons_of_neg (p := (· != quoteMark)) hstop, List.append_nil]

/-- Without another quote a phrase is not closed. -/
theorem splitQuote?_eq_none {text : Text} (h : quoteMark ∉ text) : splitQuote? text = none := by
  rw [splitQuote?, List.dropWhile_eq_nil_iff.2 (bne_quoteMark h)]

/-- What is in a phrase has no quote. -/
theorem quoteMark_notMem_of_splitQuote? {text inside rest : Text}
    (h : splitQuote? text = some (inside, rest)) : quoteMark ∉ inside := by
  have hmem : quoteMark ∈ text := by
    rw [eq_append_of_splitQuote? h]
    exact List.mem_append_right _ List.mem_cons_self
  obtain ⟨first, later, rfl, hfirst⟩ := List.eq_append_cons_of_mem hmem
  rw [splitQuote?_append hfirst] at h
  cases h
  exact hfirst

/-- Without a phrase there is no other quote. -/
theorem quoteMark_notMem_of_splitQuote?_eq_none {text : Text} (h : splitQuote? text = none) :
    quoteMark ∉ text := by
  intro hmem
  obtain ⟨first, later, rfl, hfirst⟩ := List.eq_append_cons_of_mem hmem
  rw [splitQuote?_append hfirst] at h
  cases h

/-! ### Runs -/

theorem isWordChar_of_isBlank {c : CodePoint} (h : isBlank c = true) : isWordChar c = false := by
  rw [isWordChar, h]
  rfl

theorem ne_quoteMark_of_isBlank {c : CodePoint} (h : isBlank c = true) : c ≠ quoteMark := by
  rintro rfl
  exact absurd h (by decide)

theorem isWordChar_of_signKind? {c : CodePoint} {kind : TokenKind} (h : signKind? c = some kind) :
    isWordChar c = false := by
  rw [isWordChar, h]
  exact Bool.and_eq_false_iff.2 (Or.inl (Bool.and_false _))

theorem ne_quoteMark_of_signKind? {c : CodePoint} {kind : TokenKind}
    (h : signKind? c = some kind) : c ≠ quoteMark := by
  rintro rfl
  cases h

/-- The signs of the query grammar. -/
def grammarSigns : Text :=
  ['&', '|', '!', '(', ')']

/-- The five signs, each with its meaning. -/
theorem signKind?_eq_some_iff {c : CodePoint} {kind : TokenKind} :
    signKind? c = some kind ↔
      (c, kind) ∈ [(CodePoint.char '&', TokenKind.and), (.char '|', .or), (.char '!', .not),
        (.char '(', .opening), (.char ')', .closing)] := by
  constructor
  · intro h
    unfold signKind? at h
    split at h <;> cases h <;> decide
  · intro h
    have hsigns : ∀ sign ∈ [(CodePoint.char '&', TokenKind.and), (.char '|', .or),
        (.char '!', .not), (.char '(', .opening), (.char ')', .closing)],
        signKind? sign.1 = some sign.2 := by decide
    exact hsigns (c, kind) h

theorem signKind?_eq_none_iff {c : CodePoint} : signKind? c = none ↔ c ∉ grammarSigns := by
  cases hkind : signKind? c with
  | none =>
    refine iff_of_true rfl fun hmem => ?_
    have hsigns : ∀ sign ∈ grammarSigns, signKind? sign ≠ none := by decide
    exact hsigns c hmem hkind
  | some kind =>
    refine iff_of_false nofun (not_not.2 ?_)
    exact List.mem_map_of_mem (f := Prod.fst) (signKind?_eq_some_iff.1 hkind)

/-- The characters of words are all but blanks, the quote and the five signs. -/
theorem isWordChar_iff {c : CodePoint} :
    isWordChar c = true ↔ isBlank c = false ∧ c ∉ quoteMark :: grammarSigns := by
  rw [isWordChar, Bool.and_eq_true, Bool.and_eq_true, Bool.not_eq_true', bne_iff_ne,
    Option.isNone_iff_eq_none, signKind?_eq_none_iff, List.mem_cons, not_or, and_assoc,
    and_comm (a := c ≠ quoteMark)]

theorem isWordChar_quoteMark : isWordChar quoteMark = false := by
  decide

/-- A run of word characters has no quote. -/
theorem quoteMark_notMem_run {run : Text} (h : ∀ c ∈ run, isWordChar c = true) :
    quoteMark ∉ run := by
  intro hmem
  have hquote := h quoteMark hmem
  rw [isWordChar_quoteMark] at hquote
  cases hquote

/-- A run that nothing goes on with is the longest one that its text begins with. -/
theorem takeWhile_run {run rest : Text} (hrun : ∀ c ∈ run, isWordChar c = true)
    (hrest : ∀ c ∈ rest.head?, isWordChar c = false) :
    (run ++ rest).takeWhile isWordChar = run ∧ (run ++ rest).dropWhile isWordChar = rest := by
  rw [List.takeWhile_append_of_pos hrun, List.dropWhile_append_of_pos hrun]
  cases rest with
  | nil => exact ⟨List.append_nil run, rfl⟩
  | cons c rest =>
    have hc : ¬isWordChar c = true := by
      rw [hrest c rfl]
      decide
    rw [List.takeWhile_cons_of_neg hc, List.dropWhile_cons_of_neg hc, List.append_nil]
    exact ⟨rfl, rfl⟩

/-! ### Induction along the pieces of a text -/

/-- Induction along the pieces that a text is cut into. -/
@[elab_as_elim]
theorem cut_induction {motive : Text → Prop} (nil : motive [])
    (phrase : ∀ inside rest, quoteMark ∉ inside → motive rest →
      motive (quoteMark :: (inside ++ quoteMark :: rest)))
    (stray : ∀ rest, quoteMark ∉ rest → motive rest → motive (quoteMark :: rest))
    (sign : ∀ c kind rest, signKind? c = some kind → motive rest → motive (c :: rest))
    (blank : ∀ c rest, isBlank c = true → motive rest → motive (c :: rest))
    (run : ∀ run rest, run ≠ [] → (∀ c ∈ run, isWordChar c = true) →
      (∀ c ∈ rest.head?, isWordChar c = false) → motive rest → motive (run ++ rest))
    (text : Text) : motive text := by
  refine tokensFrom.induct (fun _ text => motive text) ?_ ?_ ?_ ?_ ?_ ?_ 0 text
  · exact fun _ => nil
  · intro _ text inside rest hsplit ih
    rw [eq_append_of_splitQuote? hsplit]
    exact phrase inside rest (quoteMark_notMem_of_splitQuote? hsplit) ih
  · intro _ text hsplit ih
    exact stray text (quoteMark_notMem_of_splitQuote?_eq_none hsplit) ih
  · intro _ c text _ kind hkind ih
    exact sign c kind text hkind ih
  · intro _ c text _ _ hblank ih
    exact blank c text hblank ih
  · intro _ c text hquote hsign hblank _ ih
    have hc : isWordChar c = true := by
      rw [isWordChar, hsign, Bool.eq_false_iff.2 hblank, bne_iff_ne.2 hquote]
      rfl
    have htext : c :: text = (c :: text.takeWhile isWordChar) ++ text.dropWhile isWordChar := by
      rw [List.cons_append, List.takeWhile_append_dropWhile]
    rw [htext]
    refine run _ _ (List.cons_ne_nil _ _) (List.forall_mem_cons.2 ⟨hc, ?_⟩) ?_ ih
    · exact fun d hd => List.mem_takeWhile_imp hd
    · intro d hd
      have hhead := List.head?_dropWhile_not isWordChar text
      rwa [Option.mem_def.1 hd] at hhead

/-! ### Tokens piece by piece -/

theorem tokensFrom_phrase {inside : Text} (h : quoteMark ∉ inside) (position : Nat) (rest : Text) :
    tokensFrom position (quoteMark :: (inside ++ quoteMark :: rest)) =
      ⟨.phrase (phraseWords inside), quoteMark :: inside ++ [quoteMark], position⟩ ::
        tokensFrom (position + inside.length + 2) rest := by
  rw [tokensFrom, if_pos rfl]
  split
  · next found later hsplit =>
    rw [splitQuote?_append h] at hsplit
    cases hsplit
    rfl
  · next hsplit =>
    rw [splitQuote?_append h] at hsplit
    cases hsplit

theorem tokensFrom_stray {rest : Text} (h : quoteMark ∉ rest) (position : Nat) :
    tokensFrom position (quoteMark :: rest) = tokensFrom (position + 1) rest := by
  rw [tokensFrom, if_pos rfl]
  split
  · next found later hsplit =>
    rw [splitQuote?_eq_none h] at hsplit
    cases hsplit
  · rfl

theorem tokensFrom_sign {c : CodePoint} {kind : TokenKind} (h : signKind? c = some kind)
    (position : Nat) (rest : Text) :
    tokensFrom position (c :: rest) = ⟨kind, [c], position⟩ :: tokensFrom (position + 1) rest := by
  rw [tokensFrom, if_neg (ne_quoteMark_of_signKind? h), h]

theorem tokensFrom_blank {c : CodePoint} (h : isBlank c = true) (position : Nat) (rest : Text) :
    tokensFrom position (c :: rest) = tokensFrom (position + 1) rest := by
  have hsigns : ∀ sign ∈ quoteMark :: grammarSigns, isBlank sign = false := by decide
  have hplain : c ∉ quoteMark :: grammarSigns := by
    intro hmem
    rw [hsigns c hmem] at h
    cases h
  obtain ⟨hquote, hsign⟩ := List.ne_and_not_mem_of_not_mem_cons hplain
  rw [tokensFrom, if_neg hquote, signKind?_eq_none_iff.2 hsign, h, if_pos rfl]

/-- A text begins with the run of word characters that it begins with. -/
theorem tokensFrom_of_takeWhile {text run : Text} (h : text.takeWhile isWordChar = run)
    (hne : run ≠ []) (position : Nat) :
    tokensFrom position text =
      (wordKind? run).toList.map (⟨·, run, position⟩) ++
        tokensFrom (position + run.length) (text.dropWhile isWordChar) := by
  cases text with
  | nil => exact absurd h.symm hne
  | cons c text =>
    rw [List.takeWhile_cons] at h
    split at h
    · next hc =>
      subst h
      obtain ⟨hblank, hplain⟩ := isWordChar_iff.1 hc
      obtain ⟨hquote, hsign⟩ := List.ne_and_not_mem_of_not_mem_cons hplain
      rw [tokensFrom, if_neg hquote, signKind?_eq_none_iff.2 hsign, List.dropWhile_cons_of_pos hc]
      simp only [hblank, Bool.false_eq_true, if_false]
    · exact absurd h.symm hne

theorem tokensFrom_run {run rest : Text} (hne : run ≠ []) (hrun : ∀ c ∈ run, isWordChar c = true)
    (hrest : ∀ c ∈ rest.head?, isWordChar c = false) (position : Nat) :
    tokensFrom position (run ++ rest) =
      (wordKind? run).toList.map (⟨·, run, position⟩) ++
        tokensFrom (position + run.length) rest := by
  obtain ⟨htake, hdrop⟩ := takeWhile_run hrun hrest
  rw [tokensFrom_of_takeWhile htake hne, hdrop]

/-! ### Cuts -/

/-- A place that is not between two quotes that pair up: the quotes on the left pair up by
themselves, or none is on the right. -/
def IsOutside (left right : Text) : Prop :=
  Even (left.count quoteMark) ∨ quoteMark ∉ right

/-- A place that is not inside of a run of word characters. -/
def EndsRun (left right : Text) : Prop :=
  ∀ last ∈ left.getLast?, isWordChar last = true → ∀ first ∈ right.head?, isWordChar first = false

/-- A place between two pieces of a text. -/
structure IsCut (left right : Text) : Prop where
  outside : IsOutside left right
  endsRun : EndsRun left right

theorem EndsRun.of_append_left (piece : Text) {left right : Text}
    (h : EndsRun (piece ++ left) right) : EndsRun left right := by
  intro last hlast
  refine h last ?_
  rw [List.getLast?_append, Option.mem_def.1 hlast]
  rfl

theorem even_count_quoteMark_run {run : Text} (h : ∀ c ∈ run, isWordChar c = true) :
    Even (run.count quoteMark) := by
  rw [List.count_eq_zero.2 (quoteMark_notMem_run h)]
  exact Even.zero

theorem even_count_quoteMark_phrase {inside : Text} (h : quoteMark ∉ inside) :
    Even ((quoteMark :: (inside ++ [quoteMark])).count quoteMark) := by
  rw [List.count_cons_self, List.count_append, List.count_eq_zero.2 h, List.count_singleton_self]
  decide

theorem even_count_quoteMark_singleton {c : CodePoint} (h : c ≠ quoteMark) :
    Even (([c] : Text).count quoteMark) := by
  rw [List.count_eq_zero.2 (by rw [List.mem_singleton]; exact h.symm)]
  exact Even.zero

namespace IsCut

variable {left right : Text}

/-- A cut of a text is a cut of what follows a piece of it with quotes that pair up. -/
theorem of_append_left (piece : Text) (heven : Even (piece.count quoteMark))
    (h : IsCut (piece ++ left) right) : IsCut left right where
  outside := by
    refine h.outside.imp_left fun hleft => ?_
    rw [List.count_append, Nat.even_add] at hleft
    exact hleft.1 heven
  endsRun := h.endsRun.of_append_left piece

/-- There is no quote behind one without a partner. -/
theorem quoteMark_notMem (hleft : quoteMark ∉ left) (h : IsCut (quoteMark :: left) right) :
    quoteMark ∉ right := by
  refine h.outside.resolve_left ?_
  rw [List.count_cons_self, List.count_eq_zero.2 hleft]
  decide

/-- Nothing goes on with a run on the left of a cut. -/
theorem head_append {run : Text} (hne : run ≠ []) (hrun : ∀ c ∈ run, isWordChar c = true)
    (hleft : ∀ c ∈ left.head?, isWordChar c = false) (h : IsCut (run ++ left) right) :
    ∀ c ∈ (left ++ right).head?, isWordChar c = false := by
  cases left with
  | nil =>
    rw [List.append_nil] at h
    exact h.endsRun _ (List.getLast?_eq_some_getLast hne) (hrun _ (List.getLast_mem hne))
  | cons c left => exact hleft

end IsCut

/-- The tokens of a text that is cut in two are those of its parts. -/
theorem tokensFrom_append {left right : Text} (h : IsCut left right) (position : Nat) :
    tokensFrom position (left ++ right) =
      tokensFrom position left ++ tokensFrom (position + left.length) right := by
  induction left using cut_induction generalizing position with
  | nil => rw [tokensFrom]; rfl
  | phrase inside rest hinside ih =>
    have hcut : IsCut rest right := by
      refine IsCut.of_append_left _ (even_count_quoteMark_phrase hinside) ?_
      simpa using h
    have hlength : position + inside.length + 2 + rest.length =
        position + (quoteMark :: (inside ++ quoteMark :: rest)).length := by
      simp only [List.length_cons, List.length_append]
      omega
    rw [List.cons_append, List.append_assoc, List.cons_append, tokensFrom_phrase hinside,
      tokensFrom_phrase hinside, ih hcut, hlength]
    rfl
  | stray rest hrest ih =>
    have hright := h.quoteMark_notMem hrest
    have hcut : IsCut rest right := ⟨Or.inr hright, h.endsRun.of_append_left [quoteMark]⟩
    have hnone : quoteMark ∉ rest ++ right := by
      rw [List.mem_append]
      exact not_or_intro hrest hright
    rw [List.cons_append, tokensFrom_stray hrest, tokensFrom_stray hnone, ih hcut,
      List.length_cons, Nat.add_assoc, Nat.add_comm 1]
  | sign c kind rest hkind ih =>
    have hcut : IsCut rest right := h.of_append_left [c]
      (even_count_quoteMark_singleton (ne_quoteMark_of_signKind? hkind))
    rw [List.cons_append, tokensFrom_sign hkind, tokensFrom_sign hkind, ih hcut, List.length_cons,
      Nat.add_assoc, Nat.add_comm 1]
    rfl
  | blank c rest hblank ih =>
    have hcut : IsCut rest right := h.of_append_left [c]
      (even_count_quoteMark_singleton (ne_quoteMark_of_isBlank hblank))
    rw [List.cons_append, tokensFrom_blank hblank, tokensFrom_blank hblank, ih hcut,
      List.length_cons, Nat.add_assoc, Nat.add_comm 1]
  | run run rest hne hrun hrest ih =>
    have hcut : IsCut rest right := h.of_append_left run (even_count_quoteMark_run hrun)
    rw [List.append_assoc, tokensFrom_run hne hrun (h.head_append hne hrun hrest),
      tokensFrom_run hne hrun hrest, ih hcut, List.length_append, Nat.add_assoc, List.append_assoc]

theorem tokens_append {left right : Text} (h : IsCut left right) :
    tokens (left ++ right) = tokens left ++ tokensFrom left.length right := by
  rw [tokens, tokensFrom_append h, Nat.zero_add, tokens]

/-- A text is cut before a character that belongs to no word, if that is outside of phrases. -/
theorem isCut_cons {left : Text} {c : CodePoint} {right : Text} (hc : isWordChar c = false)
    (houtside : IsOutside left (c :: right)) : IsCut left (c :: right) where
  outside := houtside
  endsRun := by
    rintro _ - - _ ⟨⟩
    exact hc

/-! ### Positions -/

/-- Tokens of a text that begins later stand later. -/
theorem tokensFrom_add (position distance : Nat) (text : Text) :
    tokensFrom (position + distance) text =
      (tokensFrom position text).map (Token.later distance) := by
  induction text using cut_induction generalizing position with
  | nil => rw [tokensFrom, tokensFrom]; rfl
  | phrase inside rest hinside ih =>
    rw [tokensFrom_phrase hinside, tokensFrom_phrase hinside, Nat.add_right_comm _ distance,
      Nat.add_right_comm _ distance, ih]
    rfl
  | stray rest hrest ih =>
    rw [tokensFrom_stray hrest, tokensFrom_stray hrest, Nat.add_right_comm, ih]
  | sign c kind rest hkind ih =>
    rw [tokensFrom_sign hkind, tokensFrom_sign hkind, Nat.add_right_comm, ih]
    rfl
  | blank c rest hblank ih =>
    rw [tokensFrom_blank hblank, tokensFrom_blank hblank, Nat.add_right_comm, ih]
  | run run rest hne hrun hrest ih =>
    rw [tokensFrom_run hne hrun hrest, tokensFrom_run hne hrun hrest, Nat.add_right_comm, ih,
      List.map_append, List.map_map]
    rfl

/-- The tokens of a text that begins at a position are its tokens, that much later. -/
theorem tokensFrom_eq_map (position : Nat) (text : Text) :
    tokensFrom position text = (tokens text).map (Token.later position) := by
  have hadd := tokensFrom_add 0 position text
  rwa [Nat.zero_add] at hadd

/-- A blank outside of quotes parts the tokens of a text. -/
theorem tokens_append_blank {left : Text} (heven : Even (left.count quoteMark)) {c : CodePoint}
    (hblank : isBlank c = true) (right : Text) :
    tokens (left ++ c :: right) =
      tokens left ++ (tokens right).map (Token.later (left.length + 1)) := by
  have hcut : IsCut left (c :: right) := isCut_cons (isWordChar_of_isBlank hblank) (Or.inl heven)
  rw [tokens_append hcut, tokensFrom_blank hblank, tokensFrom_eq_map]

/-- A phrase ends at the blank, and behind it there is a quote without a partner. -/
theorem tokens_append_blank_of_phrase :
    Even (("a! \"b or c\"" : Text).count quoteMark) ∧ isBlank (.char '\t') = true ∧
      tokens (("a! \"b or c\"" : Text) ++ .char '\t' :: ("NOT \"d" : Text)) =
        tokens "a! \"b or c\"" ++ (tokens "NOT \"d").map (Token.later 12) :=
  ⟨by decide, by decide, tokens_append_blank (by decide) (by decide) "NOT \"d"⟩

end Query

end TsQuery
