import TsQuery.Proofs.Scan.Clean

/-!
# Cleaning in one pass

Cleaning replaces one thing after another: it takes out the control characters, spells C++, then C#,
then F# in letters, and blanks the noise.  No replacement makes or breaks a place for a later one,
since a name that was spelled is letters that go together with no sign behind them, and a letter
that is not replaced keeps the sign that stands behind it.  So all of it but the first is one pass
over the text from left to right (`Query.blankNoise_spellLanguages`), from which it follows what of
a text is kept (`Query.clean_inOnePass`).
-/

namespace TsQuery

namespace Query

variable {c : CodePoint} {text : Text}

/-- A text that is read once from left to right: C++, C# and F# in either case are spelled in
letters, every other noise character becomes a blank, and all else stays as it is. -/
def inOnePass : Text → Text
  | [] => []
  | 'c' :: '+' :: '+' :: text => "cplusplus" ++ inOnePass text
  | 'C' :: '+' :: '+' :: text => "cplusplus" ++ inOnePass text
  | 'c' :: '#' :: text => "csharp" ++ inOnePass text
  | 'C' :: '#' :: text => "csharp" ++ inOnePass text
  | 'f' :: '#' :: text => "fsharp" ++ inOnePass text
  | 'F' :: '#' :: text => "fsharp" ++ inOnePass text
  | c :: text => (if isNoise c then ' ' else c) :: inOnePass text

/-! ### Names of languages -/

theorem spellLanguages_nil : spellLanguages [] = [] := by
  unfold spellLanguages
  dsimp only
  rw [Text.replace, Text.replace, Text.replace]

theorem spellLanguages_cplusplus (h : c.toSmallAscii = 'c') :
    spellLanguages (c :: '+' :: '+' :: text) = "cplusplus" ++ spellLanguages text := by
  have hafter : Text.after? ['c', '+', '+'] (c :: '+' :: '+' :: text) = some text := by
    rw [Text.after?, if_pos h]
    rfl
  -- The name begins with the letter of C#, but no sign follows.
  have hname : ("cplusplus" : Text) = .char 'c' :: Text.ofString "plusplus" := rfl
  unfold spellLanguages
  dsimp only
  rw [Text.replace_of_after? hafter, hname, List.cons_append,
    Text.replace_of_after?_eq_none rfl, Text.replace_append (by decide), ← List.cons_append,
    Text.replace_append (by decide)]

theorem spellLanguages_csharp (h : c.toSmallAscii = 'c') :
    spellLanguages (c :: '#' :: text) = "csharp" ++ spellLanguages text := by
  have hnone : Text.after? ['c', '+', '+'] (c :: '#' :: text) = none := by
    rw [Text.after?, if_pos h]
    rfl
  have hsign : Text.replace (.char '#' :: text) 'c' ['+', '+'] "cplusplus" =
      .char '#' :: text.replace 'c' ['+', '+'] "cplusplus" := Text.replace_of_after?_eq_none rfl
  have hafter : ∀ rest : Text, Text.after? ['c', '#'] (c :: '#' :: rest) = some rest := by
    intro rest
    rw [Text.after?, if_pos h]
    rfl
  unfold spellLanguages
  dsimp only
  rw [Text.replace_of_after?_eq_none hnone, hsign, Text.replace_of_after? (hafter _),
    Text.replace_append (by decide)]

theorem spellLanguages_fsharp (h : c.toSmallAscii = 'f') :
    spellLanguages (c :: '#' :: text) = "fsharp" ++ spellLanguages text := by
  have hbefore : ∀ d ∈ [c, '#'], d.toSmallAscii ≠ 'c' := by
    refine List.forall_mem_cons.2 ⟨?_, by decide⟩
    rw [h]
    decide
  have hafter : ∀ rest : Text, Text.after? ['f', '#'] (c :: '#' :: rest) = some rest := by
    intro rest
    rw [Text.after?, if_pos h]
    rfl
  have htext : (c :: '#' :: text : Text) = [c, '#'] ++ text := rfl
  unfold spellLanguages
  dsimp only
  rw [htext, Text.replace_append hbefore, Text.replace_append hbefore]
  exact Text.replace_of_after? (hafter _)

/-- Where no name of a language begins, a character is left as it is. -/
theorem spellLanguages_cons (hplus : Text.after? ['c', '+', '+'] (c :: text) = none)
    (hcsharp : Text.after? ['c', '#'] (c :: text) = none)
    (hfsharp : Text.after? ['f', '#'] (c :: text) = none) :
    spellLanguages (c :: text) = c :: spellLanguages text := by
  have hfirst : ∃ d ∈ ("cplusplus" : Text).head?, d.toSmallAscii ≠ '#' := ⟨'c', rfl, by decide⟩
  have hsecond : ∃ d ∈ ("csharp" : Text).head?, d.toSmallAscii ≠ '#' := ⟨'c', rfl, by decide⟩
  unfold spellLanguages
  dsimp only
  rw [Text.replace_of_after?_eq_none hplus,
    Text.replace_of_after?_eq_none (Text.after?_cons_replace_eq_none hfirst hcsharp),
    Text.replace_of_after?_eq_none (Text.after?_cons_replace_eq_none hsecond
      (Text.after?_cons_replace_eq_none hfirst hfsharp))]

/-! ### One pass -/

theorem blankNoise_append (left right : Text) :
    blankNoise (left ++ right) = blankNoise left ++ blankNoise right :=
  List.map_append

/-- Spelling the names of languages one after another and blanking the noise then is one pass. -/
theorem blankNoise_spellLanguages (text : Text) :
    blankNoise (spellLanguages text) = inOnePass text := by
  fun_induction inOnePass text with
  | case1 =>
    rw [spellLanguages_nil]
    rfl
  | case2 text ih | case3 text ih =>
    rw [spellLanguages_cplusplus (by decide), blankNoise_append, ih]
    rfl
  | case4 text ih | case5 text ih =>
    rw [spellLanguages_csharp (by decide), blankNoise_append, ih]
    rfl
  | case6 text ih | case7 text ih =>
    rw [spellLanguages_fsharp (by decide), blankNoise_append, ih]
    rfl
  | case8 c text hcplus hCplus hcsharp hCsharp hfsharp hFsharp ih =>
    have hplus : Text.after? ['c', '+', '+'] (c :: text) = none :=
      Text.after?_eq_none_of_signs (by decide) (by decide) hcplus hCplus
    have hc : Text.after? ['c', '#'] (c :: text) = none :=
      Text.after?_eq_none_of_signs (by decide) (by decide) hcsharp hCsharp
    have hf : Text.after? ['f', '#'] (c :: text) = none :=
      Text.after?_eq_none_of_signs (by decide) (by decide) hfsharp hFsharp
    rw [spellLanguages_cons hplus hc hf, ← ih]
    rfl

/-! ### What is kept -/

/-- The signs that mean something to a query: operators, parentheses, quotation marks of both kinds
and the hyphen. -/
def keptSigns : Text := "&|!()\"'-"

/-- Whether a character is one of the kept signs. -/
def isKeptSign (c : CodePoint) : Bool :=
  keptSigns.contains c

theorem isNoise_of_isKeptSign (h : isKeptSign c = true) : isNoise c = false := by
  have hsigns : ∀ d ∈ keptSigns, isNoise d = false := by
    decide
  exact hsigns c (List.contains_iff_mem.1 h)

theorem isControl_of_isKeptSign (h : isKeptSign c = true) : isControl c = false := by
  have hsigns : ∀ d ∈ keptSigns, isControl d = false := by
    decide
  exact hsigns c (List.contains_iff_mem.1 h)

theorem filter_isKeptSign_dropControls (text : Text) :
    (dropControls text).filter isKeptSign = text.filter isKeptSign := by
  rw [dropControls, List.filter_filter]
  refine List.filter_congr fun c _ => ?_
  cases hkept : isKeptSign c with
  | false => rfl
  | true =>
    rw [isControl_of_isKeptSign hkept]
    rfl

/-- The pass replaces no kept sign and puts none in. -/
theorem filter_isKeptSign_inOnePass (text : Text) :
    (inOnePass text).filter isKeptSign = text.filter isKeptSign := by
  fun_induction inOnePass text with
  | case1 => rfl
  | case2 text ih | case3 text ih | case4 text ih | case5 text ih | case6 text ih | case7 text ih =>
    rw [List.filter_append, ih]
    rfl
  | case8 c text _ _ _ _ _ _ ih =>
    rw [List.filter_cons, List.filter_cons, ih]
    split
    · next hnoise =>
      have hkept : ¬isKeptSign c = true := by
        intro hkept
        rw [isNoise_of_isKeptSign hkept] at hnoise
        cases hnoise
      rw [if_neg hkept]
      rfl
    · rfl

/-! ### Clean texts -/

/-- A text without noise stays as it is when noise is blanked. -/
theorem blankNoise_eq_self (h : ∀ c ∈ text, isNoise c = false) : blankNoise text = text := by
  have hid : ∀ c ∈ text, (if isNoise c then .char ' ' else c) = c := by
    intro c hc
    rw [h c hc]
    rfl
  rw [blankNoise, List.map_congr_left hid, List.map_id']

/-- A clean text stays as it is when it is cleaned. -/
theorem clean_clean (text : Text) : clean (clean text) = clean text := by
  have hnoise : ∀ c ∈ clean text, isNoise c = false := fun c hc => isNoise_of_mem_clean hc
  have hplus : .char '+' ∉ clean text := fun hmem => absurd (hnoise _ hmem) (by decide)
  have hsharp : .char '#' ∉ clean text := fun hmem => absurd (hnoise _ hmem) (by decide)
  rw [clean_eq_blankNoise (fun c hc => isControl_of_mem_clean hc) hplus hsharp,
    blankNoise_eq_self hnoise]

/-- Cleaning a text is taking out its control characters and reading the rest once from left to
right.  The outcome has no control character and no noise, it has the kept signs of the text in
their order and number, and it stays as it is when it is cleaned again. -/
theorem clean_inOnePass (text : Text) :
    clean text = inOnePass (dropControls text) ∧
      (∀ c ∈ clean text, isControl c = false ∧ isNoise c = false) ∧
      (clean text).filter isKeptSign = text.filter isKeptSign ∧
      clean (clean text) = clean text := by
  have hclean : clean text = inOnePass (dropControls text) :=
    blankNoise_spellLanguages (dropControls text)
  refine ⟨hclean, fun c hc => ⟨isControl_of_mem_clean hc, isNoise_of_mem_clean hc⟩, ?_,
    clean_clean text⟩
  rw [hclean, filter_isKeptSign_inOnePass, filter_isKeptSign_dropControls]

/-- A name that a control character interrupts is spelled, and so is one right behind another. -/
example : clean "C\x01++f#c##-" = "cplusplusfsharpcsharp -" := by cbv

end Query

end TsQuery
