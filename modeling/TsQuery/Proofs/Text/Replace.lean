import TsQuery.Proofs.Text.LowerCase
import TsQuery.Text.Replace

/-!
# Replacing patterns

What follows a pattern is a part of the text behind it, and a text without a sign of the pattern is
left as it is (`Text.replace_eq_self`).  Patterns are a letter and signs here: a text begins with
one exactly if it begins with the letter in either case and with the signs themselves
(`Text.after?_eq_none_of_signs`), and it does so before a replacement by letters if it does so after
it (`Text.after?_cons_replace_eq_none`).
-/

namespace TsQuery

namespace Text

variable {first c sign : CodePoint} {more replacement text : Text}

/-! ### Patterns -/

theorem suffix_of_after? {pattern rest : Text} (h : after? pattern text = some rest) :
    rest <:+ text := by
  induction pattern generalizing text with
  | nil =>
    cases h
    exact List.suffix_rfl
  | cons p pattern ih =>
    cases text with
    | nil => cases h
    | cons c text =>
      rw [after?] at h
      split at h
      · exact (ih h).trans (List.suffix_cons c text)
      · cases h

/-- A text without a sign of the pattern does not begin with the pattern. -/
theorem after?_eq_none {pattern : Text} (hsign : sign ∈ pattern)
    (h : ∀ c ∈ text, c.toSmallAscii ≠ sign) : after? pattern text = none := by
  induction pattern generalizing text with
  | nil => cases hsign
  | cons p pattern ih =>
    cases text with
    | nil => rfl
    | cons c text =>
      obtain ⟨hc, htext⟩ := List.forall_mem_cons.1 h
      rw [after?]
      split
      · next hp =>
        rcases List.mem_cons.1 hsign with rfl | hmem
        · exact absurd hp hc
        · exact ih hmem htext
      · rfl

theorem after?_of_ne (h : c.toSmallAscii ≠ first) : after? (first :: more) (c :: text) = none :=
  if_neg h

/-- A text that begins with signs, which have no case, begins with exactly these. -/
theorem eq_append_of_after? {signs rest : Text} (hsigns : ∀ sign ∈ signs, ¬sign.IsSmallOrBeyond)
    (h : after? signs text = some rest) : text = signs ++ rest := by
  induction signs generalizing text with
  | nil => exact Option.some.inj h
  | cons sign signs ih =>
    obtain ⟨hsign, hsigns⟩ := List.forall_mem_cons.1 hsigns
    cases text with
    | nil => cases h
    | cons c text =>
      rw [after?] at h
      split at h
      · next hc => rw [CodePoint.eq_of_toSmallAscii_eq hsign hc, ih hsigns h, List.cons_append]
      · cases h

/-- A text that begins neither with a small letter and signs nor with its capital and the signs. -/
theorem after?_eq_none_of_signs {small capital : CodePoint} {signs : Text}
    (hcapital : capital.toNat + 0x20 = small.toNat) (hsigns : ∀ sign ∈ signs, ¬sign.IsSmallOrBeyond)
    (hsmall : ∀ rest, c = small → text = signs ++ rest → False)
    (hlarge : ∀ rest, c = capital → text = signs ++ rest → False) :
    after? (small :: signs) (c :: text) = none := by
  by_cases hc : c.toSmallAscii = small
  · rw [after?, if_pos hc, Option.eq_none_iff_forall_ne_some]
    intro rest hrest
    have htext := eq_append_of_after? hsigns hrest
    rcases CodePoint.eq_or_eq_of_toSmallAscii_eq hcapital hc with hc | hc
    · exact hsmall rest hc htext
    · exact hlarge rest hc htext
  · exact after?_of_ne hc

/-! ### Replacements -/

theorem replace_of_after? {rest : Text} (h : after? (first :: more) (c :: text) = some rest) :
    replace (c :: text) first more replacement =
      replacement ++ rest.replace first more replacement := by
  rw [replace]
  split
  · next other hafter =>
    rw [h] at hafter
    rw [Option.some.inj hafter]
  · next hafter =>
    rw [h] at hafter
    cases hafter

theorem replace_of_after?_eq_none (h : after? (first :: more) (c :: text) = none) :
    replace (c :: text) first more replacement = c :: text.replace first more replacement := by
  rw [replace]
  split
  · next hafter =>
    rw [h] at hafter
    cases hafter
  · rfl

/-- A character after replacing is one of the text or one that was put in. -/
theorem mem_of_mem_replace (h : c ∈ text.replace first more replacement) :
    c ∈ text ∨ c ∈ replacement := by
  fun_induction replace text first more replacement with
  | case1 => cases h
  | case2 d text rest hafter ih =>
    rcases List.mem_append.1 h with h | h
    · exact Or.inr h
    · exact (ih h).imp_left fun hrest => (suffix_of_after? hafter).subset hrest
  | case3 d text _ ih =>
    rcases List.mem_cons.1 h with rfl | h
    · exact Or.inl List.mem_cons_self
    · exact (ih h).imp_left (List.mem_cons_of_mem d)

/-- Characters that the pattern does not begin with stay in front of what is replaced. -/
theorem replace_append {before : Text} (h : ∀ c ∈ before, c.toSmallAscii ≠ first) :
    replace (before ++ text) first more replacement =
      before ++ text.replace first more replacement := by
  induction before with
  | nil => rfl
  | cons c before ih =>
    obtain ⟨hc, hbefore⟩ := List.forall_mem_cons.1 h
    rw [List.cons_append, replace_of_after?_eq_none (after?_of_ne hc), ih hbefore, List.cons_append]

/-- A text without a sign of the pattern is left as it is. -/
theorem replace_eq_self (sign : CodePoint) (hsign : sign ∈ more) (hsmall : ¬sign.IsSmallOrBeyond)
    (h : sign ∉ text) : text.replace first more replacement = text := by
  have hchars : ∀ c ∈ text, c.toSmallAscii ≠ sign := by
    intro c hc heq
    rw [CodePoint.eq_of_toSmallAscii_eq hsmall heq] at hc
    exact h hc
  induction text with
  | nil => rw [replace]
  | cons c text ih =>
    have hnone : after? (first :: more) (c :: text) = none :=
      after?_eq_none (List.mem_cons_of_mem first hsign) hchars
    rw [replace_of_after?_eq_none hnone,
      ih (List.not_mem_of_not_mem_cons h) (List.forall_mem_cons.1 hchars).2]

/-- A text that does not begin with a sign does not do so after a replacement by letters. -/
theorem after?_replace_eq_none (hreplacement : ∃ d ∈ replacement.head?, d.toSmallAscii ≠ sign)
    (h : after? [sign] text = none) :
    after? [sign] (text.replace first more replacement) = none := by
  obtain ⟨d, hd, hne⟩ := hreplacement
  obtain ⟨letters, rfl⟩ := List.head?_eq_some_iff.1 hd
  cases text with
  | nil =>
    rw [replace]
    rfl
  | cons c text =>
    cases hafter : after? (first :: more) (c :: text) with
    | some rest =>
      rw [replace_of_after? hafter]
      exact after?_of_ne hne
    | none =>
      rw [replace_of_after?_eq_none hafter]
      refine after?_of_ne fun hc => ?_
      rw [after?, if_pos hc] at h
      cases h

/-- A text that does not begin with a letter and a sign does not do so after a replacement by
letters behind its first character. -/
theorem after?_cons_replace_eq_none {letter : CodePoint}
    (hreplacement : ∃ d ∈ replacement.head?, d.toSmallAscii ≠ sign)
    (h : after? [letter, sign] (c :: text) = none) :
    after? [letter, sign] (c :: text.replace first more replacement) = none := by
  by_cases hc : c.toSmallAscii = letter
  · rw [after?, if_pos hc] at h ⊢
    exact after?_replace_eq_none hreplacement h
  · exact after?_of_ne hc

end Text

end TsQuery
