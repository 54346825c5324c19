import TsQuery.Text.LowerCase

/-!
# Characters of a lower-case text

Lower-casing puts in small ASCII letters and characters beyond ASCII only
(`Text.mem_or_isSmallOrBeyond_of_mem_lower`), so it makes no sign of a text that has none.  The
table of capitals is looked at in one place, `image_caseRuns`.
-/

namespace TsQuery

/-- A small ASCII letter, or a character beyond ASCII. -/
def CodePoint.IsSmallOrBeyond (c : CodePoint) : Prop :=
  (0x61 ≤ c.toNat ∧ c.toNat ≤ 0x7a) ∨ 0x80 ≤ c.toNat

instance (c : CodePoint) : Decidable c.IsSmallOrBeyond :=
  inferInstanceAs (Decidable (_ ∨ _))

/-- The small letter of a code point is the code point itself or, for an ASCII capital, the letter
whose number is greater by 32. -/
theorem CodePoint.toSmallAscii_cases (c : CodePoint) :
    c.toSmallAscii = c ∨
      (0x41 ≤ c.toNat ∧ c.toNat ≤ 0x5a) ∧ c.toSmallAscii.toNat = c.toNat + 0x20 := by
  cases c with
  | half offset => exact Or.inl rfl
  | char c =>
    rw [toSmallAscii]
    by_cases hupper : c.val ≥ 'A'.val ∧ c.val ≤ 'Z'.val
    · right
      have hfirst : 0x41 ≤ c.val.toNat := UInt32.le_iff_toNat_le.1 hupper.1
      have hlast : c.val.toNat ≤ 0x5a := UInt32.le_iff_toNat_le.1 hupper.2
      have hval : c.toLower.val = c.val + 0x20 := congrArg Char.val (dif_pos hupper)
      refine ⟨⟨hfirst, hlast⟩, ?_⟩
      change c.toLower.val.toNat = c.val.toNat + 0x20
      rw [hval, UInt32.toNat_add, Nat.mod_eq_of_lt]
      · rfl
      · change c.val.toNat + 0x20 < 2 ^ 32
        omega
    · exact Or.inl (congrArg char (dif_neg hupper))

/-- The small letter of an ASCII character, if it is another one, is an ASCII letter. -/
theorem CodePoint.toSmallAscii_eq_or_isSmallOrBeyond (c : CodePoint) :
    c.toSmallAscii = c ∨ c.toSmallAscii.IsSmallOrBeyond := by
  rcases c.toSmallAscii_cases with heq | ⟨hcapital, hnumber⟩
  · exact Or.inl heq
  · right
    left
    omega

/-- The code points of one small letter are the letter and its capital. -/
theorem CodePoint.eq_or_eq_of_toSmallAscii_eq {c small capital : CodePoint}
    (hcapital : capital.toNat + 0x20 = small.toNat) (h : c.toSmallAscii = small) :
    c = small ∨ c = capital := by
  rcases c.toSmallAscii_cases with heq | ⟨-, hnumber⟩
  · exact Or.inl (heq.symm.trans h)
  · right
    rw [h] at hnumber
    exact toNat_inj.1 (by omega)

/-- A sign is the small letter of no other code point. -/
theorem CodePoint.eq_of_toSmallAscii_eq {c sign : CodePoint} (hsign : ¬sign.IsSmallOrBeyond)
    (h : c.toSmallAscii = sign) : c = sign := by
  rcases c.toSmallAscii_eq_or_isSmallOrBeyond with heq | hletter
  · exact heq.symm.trans h
  · rw [h] at hletter
    exact absurd hletter hsign

/-- The small letters of a run of capitals are ASCII letters, or all of them are beyond ASCII. -/
theorem image_caseRuns : ∀ run ∈ caseRuns,
    (0x61 ≤ run.first + run.shift ∧ run.last + run.shift ≤ 0x7a ∨ 0x80 ≤ run.first + run.shift) ∧
      run.last + run.shift < 0x110000 := by
  decide +kernel

/-- The small letter of a character, if it is another one, is an ASCII letter or beyond ASCII. -/
theorem smallLetter_eq_or_isSmallOrBeyond (c : CodePoint) :
    smallLetter c = c ∨ (smallLetter c).IsSmallOrBeyond := by
  unfold smallLetter
  split
  · next run hfind =>
    right
    have hcovers : run.covers c.toNat = true :=
      List.find?_some (p := (CaseRun.covers · c.toNat)) hfind
    obtain ⟨himage, hbound⟩ := image_caseRuns run (List.mem_of_find?_eq_some hfind)
    simp only [CaseRun.covers, Bool.and_eq_true, decide_eq_true_eq] at hcovers
    obtain ⟨⟨hfirst, hlast⟩, -⟩ := hcovers
    -- The number is that of a code point, so it is not replaced by that of the null character.
    have hnumber :
        (CodePoint.ofNat (c.toNat + run.shift).toNat).toNat = (c.toNat + run.shift).toNat :=
      CodePoint.toNat_ofNat (by omega)
    rw [CodePoint.IsSmallOrBeyond, hnumber]
    omega
  · exact Or.inl rfl

namespace Text

theorem mem_or_isSmallOrBeyond_of_mem_lowerChar {afterCased : Bool} {c d : CodePoint} {rest : Text}
    (h : d ∈ lowerChar afterCased c rest) : d = c ∨ d.IsSmallOrBeyond := by
  unfold lowerChar at h
  split at h
  · simp only [List.mem_cons, List.not_mem_nil, or_false] at h
    rcases h with rfl | rfl
    · exact Or.inr (by decide)
    · exact Or.inr (by decide)
  · split at h
    · rw [List.mem_singleton] at h
      subst h
      right
      split
      · decide
      · decide
    · rw [List.mem_singleton] at h
      subst h
      exact smallLetter_eq_or_isSmallOrBeyond c

theorem mem_or_isSmallOrBeyond_of_mem_lowerAfter {afterCased : Bool} {text : Text} {d : CodePoint}
    (h : d ∈ lowerAfter afterCased text) : d ∈ text ∨ d.IsSmallOrBeyond := by
  induction text generalizing afterCased with
  | nil => cases h
  | cons c text ih =>
    rw [lowerAfter] at h
    rcases List.mem_append.1 h with h | h
    · rcases mem_or_isSmallOrBeyond_of_mem_lowerChar h with rfl | h
      · exact Or.inl List.mem_cons_self
      · exact Or.inr h
    · exact (ih h).imp_left (List.mem_cons_of_mem c)

/-- A character of a lower-case text is one of the text, a small ASCII letter or beyond ASCII. -/
theorem mem_or_isSmallOrBeyond_of_mem_lower {text : Text} {d : CodePoint} (h : d ∈ text.lower) :
    d ∈ text ∨ d.IsSmallOrBeyond :=
  mem_or_isSmallOrBeyond_of_mem_lowerAfter h

end Text

end TsQuery
