import Mathlib
import TsQuery.Number.Binary64

/-!
# Rounding to a binary floating-point number

The number nearest to a ratio depends on the ratio only, not on how it is written as a fraction
(`Binary64.ofRatio_congr`).  This rests on the power of two that is chosen for it being a logarithm
(`Binary64.exponentOf_eq_log`).  So a decimal with zeros moved between its digits and its power is
nearest to the same number (`Binary64.ofDecimal_mul_pow`).

A number is proper if it is one of those that the format has.  Rounding gives proper numbers only
(`Binary64.isProper_ofDecimal`), and leaves a ratio that is one as it is
(`Binary64.ofDecimal_of_eq`).
-/

namespace TsQuery

namespace Binary64

/-- Whether a number is one of the format: a significand and a power of two in range, and the
significand at least `leastSignificand` unless the power is the smallest. -/
def IsProper : Binary64 → Prop
  | finite _ significand exponent =>
    minExponent ≤ exponent ∧ exponent ≤ maxExponent ∧ significand < 2 * leastSignificand ∧
      (exponent = minExponent ∨ leastSignificand ≤ significand)
  | _ => True

theorem leastSignificand_eq : leastSignificand = 2 ^ 52 := rfl

/-! ### Ratios -/

section Scaled

variable {base numerator denominator : Nat} {power : Int}

theorem scaled_pos (hbase : 0 < base) (h : 0 < denominator) :
    0 < (scaled base numerator denominator power).2 := by
  unfold scaled
  split
  · exact Nat.mul_pos h (Nat.pow_pos hbase)
  · exact h

theorem scaled_num_pos (hbase : 0 < base) (h : 0 < numerator) :
    0 < (scaled base numerator denominator power).1 := by
  unfold scaled
  split
  · exact h
  · exact Nat.mul_pos h (Nat.pow_pos hbase)

/-- Scaling multiplies a ratio by the power. -/
theorem scaled_div (hbase : 0 < base) :
    ((scaled base numerator denominator power).1 : ℚ) /
        (scaled base numerator denominator power).2 =
      (numerator : ℚ) / denominator * (base : ℚ) ^ power := by
  have hne : (base : ℚ) ≠ 0 := by positivity
  by_cases hneg : power < 0
  · obtain ⟨n, hn⟩ : ∃ n : Nat, power = -(n : Int) := ⟨power.natAbs, by omega⟩
    have hpow : ((Nat.pow base n : Nat) : ℚ) = (base : ℚ) ^ n := by
      exact_mod_cast rfl
    rw [scaled, if_pos hneg, hn, Int.natAbs_neg, Int.natAbs_natCast, zpow_neg, zpow_natCast]
    push_cast
    rw [hpow, div_mul_eq_div_div, div_eq_mul_inv]
  · obtain ⟨n, hn⟩ : ∃ n : Nat, power = (n : Int) := ⟨power.natAbs, by omega⟩
    have hpow : ((Nat.pow base n : Nat) : ℚ) = (base : ℚ) ^ n := by
      exact_mod_cast rfl
    rw [scaled, if_neg hneg, hn, Int.natAbs_natCast, zpow_natCast]
    push_cast
    rw [hpow, mul_div_right_comm]

end Scaled

/-- Equal ratios are rounded to the same integer. -/
theorem roundedRatio_mul {k : Nat} (hk : 0 < k) (numerator denominator : Nat) :
    roundedRatio (k * numerator) (k * denominator) = roundedRatio numerator denominator := by
  have hup : 2 * (k * (numerator % denominator)) < k * denominator ↔
      2 * (numerator % denominator) < denominator := by
    rw [Nat.mul_left_comm, Nat.mul_lt_mul_left hk]
  have hdown : k * denominator < 2 * (k * (numerator % denominator)) ↔
      denominator < 2 * (numerator % denominator) := by
    rw [Nat.mul_left_comm, Nat.mul_lt_mul_left hk]
  simp only [roundedRatio, Nat.mul_div_mul_left _ _ hk, Nat.mul_mod_mul_left, hup, hdown]

theorem roundedRatio_congr {n d n' d' : Nat} (hd : 0 < d) (hd' : 0 < d') (h : n * d' = n' * d) :
    roundedRatio n d = roundedRatio n' d' := by
  rw [← roundedRatio_mul hd' n d, ← roundedRatio_mul hd n' d', Nat.mul_comm d' n, h,
    Nat.mul_comm n' d, Nat.mul_comm d' d]

/-- A rounded ratio is one of the two integers beside it. -/
theorem roundedRatio_eq_or (numerator denominator : Nat) :
    roundedRatio numerator denominator = numerator / denominator ∨
      roundedRatio numerator denominator = numerator / denominator + 1 := by
  simp only [roundedRatio]
  split_ifs <;> omega

theorem roundedRatio_of_eq {s n d : Nat} (hd : 0 < d) (h : n = s * d) : roundedRatio n d = s := by
  subst h
  have hrest : s * d % d = 0 := Nat.mul_mod_left s d
  rw [roundedRatio, hrest, Nat.mul_zero, if_pos hd, Nat.mul_div_cancel s hd]

/-- A ratio of at least an integer is rounded to at least it. -/
theorem le_roundedRatio {s n d : Nat} (hd : 0 < d) (h : s * d ≤ n) : s ≤ roundedRatio n d := by
  have hdiv : s ≤ n / d := (Nat.le_div_iff_mul_le hd).2 h
  have := roundedRatio_eq_or n d
  omega

/-- A ratio below an integer is rounded to at most it. -/
theorem roundedRatio_le {s n d : Nat} (hd : 0 < d) (h : n < s * d) : roundedRatio n d ≤ s := by
  have hdiv : n / d < s := (Nat.div_lt_iff_lt_mul hd).2 h
  have := roundedRatio_eq_or n d
  omega

/-! ### The power of two -/

/-- The power of two between which and its double a number lies is its logarithm. -/
theorem log_eq {r : ℚ} {x : Int} (hle : (2 : ℚ) ^ x ≤ r) (hlt : r < (2 : ℚ) ^ (x + 1)) :
    Int.log 2 r = x := by
  have hpos : 0 < r := lt_of_lt_of_le (by positivity) hle
  have hlog := Int.zpow_log_le_self (b := 2) one_lt_two hpos
  have hsucc := Int.lt_zpow_succ_log_self (b := 2) one_lt_two r
  push_cast at hlog hsucc
  have hupper := (zpow_lt_zpow_iff_right₀ (one_lt_two (α := ℚ))).1 (lt_of_le_of_lt hlog hlt)
  have hlower := (zpow_lt_zpow_iff_right₀ (one_lt_two (α := ℚ))).1 (lt_of_le_of_lt hle hsucc)
  omega

/-- The lengths of numerator and denominator in bits leave two choices for the logarithm. -/
theorem div_bounds {n d : Nat} (hn : 0 < n) (hd : 0 < d) :
    (2 : ℚ) ^ ((n.log2 : Int) - d.log2 - 1) ≤ (n : ℚ) / d ∧
      (n : ℚ) / d < (2 : ℚ) ^ ((n.log2 : Int) - d.log2 + 1) := by
  have hdq : (0 : ℚ) < d := by exact_mod_cast hd
  have hnle : (2 : ℚ) ^ (n.log2 : Int) ≤ n := by
    exact_mod_cast Nat.log2_self_le hn.ne'
  have hnlt : (n : ℚ) < 2 ^ ((n.log2 : Int) + 1) := by
    exact_mod_cast Nat.lt_log2_self
  have hdle : (2 : ℚ) ^ (d.log2 : Int) ≤ d := by
    exact_mod_cast Nat.log2_self_le hd.ne'
  have hdlt : (d : ℚ) < 2 ^ ((d.log2 : Int) + 1) := by
    exact_mod_cast Nat.lt_log2_self
  constructor
  · rw [le_div_iff₀ hdq]
    calc (2 : ℚ) ^ ((n.log2 : Int) - d.log2 - 1) * d
        ≤ 2 ^ ((n.log2 : Int) - d.log2 - 1) * 2 ^ ((d.log2 : Int) + 1) := by gcongr
      _ = 2 ^ (n.log2 : Int) := by
        rw [← zpow_add₀ two_ne_zero]
        congr 1
        ring
      _ ≤ n := hnle
  · rw [div_lt_iff₀ hdq]
    calc (n : ℚ) < 2 ^ ((n.log2 : Int) + 1) := hnlt
      _ = 2 ^ ((n.log2 : Int) - d.log2 + 1) * 2 ^ (d.log2 : Int) := by
        rw [← zpow_add₀ two_ne_zero]
        congr 1
        ring
      _ ≤ 2 ^ ((n.log2 : Int) - d.log2 + 1) * d := by gcongr

/-- The power of two of a ratio leaves a significand of 53 bits, unless it is the smallest. -/
theorem exponentOf_eq_log {n d : Nat} (hn : 0 < n) (hd : 0 < d) :
    exponentOf n d = max minExponent (Int.log 2 ((n : ℚ) / d) - 52) := by
  obtain ⟨hlower, hupper⟩ := div_bounds hn hd
  set guess : Int := (n.log2 : Int) - (d.log2 : Int) - 52 with hguess
  have hbelow : 0 < (scaled 2 n d (-guess)).2 := scaled_pos two_pos hd
  -- The comparison in the definition tells the two choices apart.
  have htest : (scaled 2 n d (-guess)).1 < leastSignificand * (scaled 2 n d (-guess)).2 ↔
      (n : ℚ) / d < (2 : ℚ) ^ (guess + 52) := by
    have hscaled := @scaled_div 2 n d (-guess) two_pos
    rw [← Nat.cast_lt (α := ℚ), Nat.cast_mul, ← div_lt_iff₀ (by exact_mod_cast hbelow), hscaled,
      leastSignificand_eq, Nat.cast_ofNat, zpow_neg, ← div_eq_mul_inv,
      div_lt_iff₀ (by positivity), zpow_add₀ two_ne_zero]
    push_cast
    rw [mul_comm]
  have hlog : Int.log 2 ((n : ℚ) / d) =
      if (n : ℚ) / d < (2 : ℚ) ^ (guess + 52) then guess + 51 else guess + 52 := by
    split_ifs with hlt
    · refine log_eq ?_ (by rwa [show guess + 51 + 1 = guess + 52 by ring])
      rwa [show guess + 51 = (n.log2 : Int) - d.log2 - 1 by omega]
    · refine log_eq (not_lt.1 hlt) ?_
      rwa [show guess + 52 + 1 = (n.log2 : Int) - d.log2 + 1 by omega]
  simp only [exponentOf, ← hguess, htest]
  rw [hlog]
  split_ifs <;> congr 1 <;> omega

/-! ### The nearest number -/

/-- The number nearest to a ratio depends on the ratio only. -/
theorem ofRatio_congr {negative : Bool} {n d n' d' : Nat} (hn : 0 < n) (hd : 0 < d) (hd' : 0 < d')
    (h : (n : ℚ) / d = (n' : ℚ) / d') : ofRatio negative n d = ofRatio negative n' d' := by
  have hpos : (0 : ℚ) < (n' : ℚ) / d' := by
    rw [← h]
    positivity
  have hn' : 0 < n' := by
    rcases Nat.eq_zero_or_pos n' with rfl | hn'
    · simp at hpos
    · exact hn'
  have hexponent : exponentOf n d = exponentOf n' d' := by
    rw [exponentOf_eq_log hn hd, exponentOf_eq_log hn' hd', h]
  have hround : roundedRatio (scaled 2 n d (-exponentOf n d)).1
        (scaled 2 n d (-exponentOf n d)).2 =
      roundedRatio (scaled 2 n' d' (-exponentOf n d)).1 (scaled 2 n' d' (-exponentOf n d)).2 := by
    have hbelow : 0 < (scaled 2 n d (-exponentOf n d)).2 := scaled_pos two_pos hd
    have hbelow' : 0 < (scaled 2 n' d' (-exponentOf n d)).2 := scaled_pos two_pos hd'
    refine roundedRatio_congr hbelow hbelow' ?_
    have heq : ((scaled 2 n d (-exponentOf n d)).1 : ℚ) / (scaled 2 n d (-exponentOf n d)).2 =
        ((scaled 2 n' d' (-exponentOf n d)).1 : ℚ) / (scaled 2 n' d' (-exponentOf n d)).2 := by
      rw [scaled_div two_pos, scaled_div two_pos, h]
    rw [div_eq_div_iff (by positivity) (by positivity)] at heq
    exact_mod_cast heq
  simp only [ofRatio, hround, ← hexponent]

/-- The power of two of a ratio leaves less than 53 bits before the point, and no less than 52
unless it is the smallest. -/
theorem exponentOf_bounds {n d : Nat} (hn : 0 < n) (hd : 0 < d) :
    minExponent ≤ exponentOf n d ∧ (n : ℚ) / d < 2 * 2 ^ 52 * 2 ^ exponentOf n d ∧
      (exponentOf n d = minExponent ∨ 2 ^ 52 * 2 ^ exponentOf n d ≤ (n : ℚ) / d) := by
  have hpos : (0 : ℚ) < (n : ℚ) / d := by positivity
  have hlog := exponentOf_eq_log hn hd
  set log := Int.log 2 ((n : ℚ) / d) with hlogdef
  have hself : (2 : ℚ) ^ log ≤ (n : ℚ) / d := by
    exact_mod_cast Int.zpow_log_le_self (b := 2) one_lt_two hpos
  have hsucc : (n : ℚ) / d < 2 ^ (log + 1) := by
    exact_mod_cast Int.lt_zpow_succ_log_self (b := 2) one_lt_two ((n : ℚ) / d)
  refine ⟨hlog ▸ le_max_left _ _, ?_, ?_⟩
  · have hle : log + 1 ≤ 53 + exponentOf n d := by
      have := le_max_right minExponent (log - 52)
      omega
    calc (n : ℚ) / d < 2 ^ (log + 1) := hsucc
      _ ≤ 2 ^ (53 + exponentOf n d) := zpow_le_zpow_right₀ one_le_two hle
      _ = 2 * 2 ^ 52 * 2 ^ exponentOf n d := by
        rw [zpow_add₀ two_ne_zero]
        norm_num
  · rcases max_choice minExponent (log - 52) with hmax | hmax
    · exact Or.inl (hlog.trans hmax)
    · refine Or.inr ?_
      calc (2 : ℚ) ^ 52 * 2 ^ exponentOf n d = 2 ^ (52 + exponentOf n d) := by
            rw [zpow_add₀ two_ne_zero]
            norm_num
        _ = 2 ^ log := by
            congr 1
            omega
        _ ≤ (n : ℚ) / d := hself

/-- Rounding gives a number of the format. -/
theorem isProper_ofRatio (negative : Bool) {n d : Nat} (hn : 0 < n) (hd : 0 < d) :
    (ofRatio negative n d).IsProper := by
  obtain ⟨hmin, hlt, hle⟩ := exponentOf_bounds hn hd
  set e := exponentOf n d with he
  have hbelow : 0 < (scaled 2 n d (-e)).2 := scaled_pos two_pos hd
  have hbelowq : (0 : ℚ) < (scaled 2 n d (-e)).2 := by exact_mod_cast hbelow
  have hscaled := @scaled_div 2 n d (-e) two_pos
  rw [zpow_neg, ← div_eq_mul_inv, Nat.cast_ofNat] at hscaled
  set rounded := roundedRatio (scaled 2 n d (-e)).1 (scaled 2 n d (-e)).2 with hrounded
  have hupper : rounded ≤ 2 * leastSignificand := by
    refine roundedRatio_le hbelow ?_
    rw [← Nat.cast_lt (α := ℚ), Nat.cast_mul, ← div_lt_iff₀ hbelowq, hscaled,
      div_lt_iff₀ (by positivity), leastSignificand_eq]
    exact_mod_cast hlt
  have hlower : e = minExponent ∨ leastSignificand ≤ rounded := by
    refine hle.imp_right fun hle => le_roundedRatio hbelow ?_
    rw [← Nat.cast_le (α := ℚ), Nat.cast_mul, ← le_div_iff₀ hbelowq, hscaled,
      le_div_iff₀ (by positivity), leastSignificand_eq]
    exact_mod_cast hle
  have hleast : 0 < leastSignificand := by
    rw [leastSignificand_eq]
    positivity
  simp only [ofRatio, ← he, ← hrounded]
  by_cases hfull : rounded = 2 * leastSignificand
  · rw [if_pos hfull]
    dsimp only
    split_ifs with hmax
    · trivial
    · exact ⟨by omega, not_lt.1 hmax, by omega, Or.inr le_rfl⟩
  · rw [if_neg hfull]
    dsimp only
    split_ifs with hmax
    · trivial
    · exact ⟨hmin, not_lt.1 hmax, lt_of_le_of_ne hupper hfull, hlower⟩

/-- A ratio that is a number of the format is left as it is. -/
theorem ofRatio_of_eq {negative : Bool} {significand : Nat} {exponent : Int}
    (hproper : (finite negative significand exponent).IsProper) (hne : 0 < significand)
    {n d : Nat} (hn : 0 < n) (hd : 0 < d) (h : (n : ℚ) / d = significand * 2 ^ exponent) :
    ofRatio negative n d = finite negative significand exponent := by
  obtain ⟨hmin, hmax, hlt, hleast⟩ := hproper
  rw [leastSignificand_eq] at hlt hleast
  have hexponent : exponentOf n d = exponent := by
    have hlog : Int.log 2 ((n : ℚ) / d) = significand.log2 + exponent := by
      refine log_eq ?_ ?_
      · rw [h, zpow_add₀ two_ne_zero]
        gcongr
        exact_mod_cast Nat.log2_self_le hne.ne'
      · rw [h, add_right_comm, zpow_add₀ two_ne_zero]
        gcongr
        exact_mod_cast Nat.lt_log2_self
    have hbits : significand.log2 < 53 := (Nat.log2_lt hne.ne').2 (by omega)
    rw [exponentOf_eq_log hn hd, hlog]
    rcases hleast with heq | hle
    · rw [max_eq_left (by omega), heq]
    · have hbits' : 52 ≤ significand.log2 := (Nat.le_log2 hne.ne').2 hle
      rw [show significand.log2 = 52 by omega, max_eq_right (by omega)]
      omega
  have hbelow : 0 < (scaled 2 n d (-exponent)).2 := scaled_pos two_pos hd
  have hround : roundedRatio (scaled 2 n d (-exponent)).1 (scaled 2 n d (-exponent)).2 =
      significand := by
    refine roundedRatio_of_eq hbelow ?_
    have hscaled := @scaled_div 2 n d (-exponent) two_pos
    rw [h, zpow_neg, Nat.cast_ofNat, mul_assoc, mul_inv_cancel₀ (by positivity), mul_one,
      div_eq_iff (by positivity)] at hscaled
    exact_mod_cast hscaled
  have hfull : ¬significand = 2 * leastSignificand := by
    rw [leastSignificand_eq]
    omega
  simp only [ofRatio, hexponent, hround, if_neg hfull, if_neg (not_lt.2 hmax)]

/-! ### Decimals -/

/-- Zeros behind a number make it longer. -/
theorem length_toDigits_mul_pow {n : Nat} (hn : 0 < n) (k : Nat) :
    (Nat.toDigits 10 (n * 10 ^ k)).length = (Nat.toDigits 10 n).length + k := by
  induction k with
  | zero => rw [Nat.pow_zero, Nat.mul_one, Nat.add_zero]
  | succ k ih =>
    have hpos : 0 < n * 10 ^ k := Nat.mul_pos hn (Nat.pow_pos (by decide))
    have hshift : n * 10 ^ (k + 1) = 10 * (n * 10 ^ k) + 0 := by ring
    rw [hshift, ← Nat.toDigits_append_toDigits (by decide) hpos (by decide), List.length_append, ih,
      Nat.toDigits_zero]
    rfl

/-- The number of the digits tells the size of a number. -/
theorem toDigits_bounds {n : Nat} (hn : 0 < n) :
    10 ^ ((Nat.toDigits 10 n).length - 1) ≤ n ∧ n < 10 ^ (Nat.toDigits 10 n).length := by
  have hlength : 0 < (Nat.toDigits 10 n).length := Nat.length_toDigits_pos
  refine ⟨?_, (Nat.length_toDigits_le_iff (by decide) hlength).1 le_rfl⟩
  by_cases hone : (Nat.toDigits 10 n).length = 1
  · rw [hone]
    exact hn
  · by_contra hlt
    have hshort : 0 < (Nat.toDigits 10 n).length - 1 := by omega
    have := (Nat.length_toDigits_le_iff (by decide) hshort).2 (not_le.1 hlt)
    omega

/-- A decimal that is neither far too small nor far too great is rounded as the ratio that it is. -/
theorem ofDecimal_of_leading {negative : Bool} {digits : Nat} {power : Int} (hne : 0 < digits)
    (hlow : ¬((Nat.toDigits 10 digits).length : Int) + power < -330)
    (hhigh : ¬310 < ((Nat.toDigits 10 digits).length : Int) + power) :
    ofDecimal negative digits power =
      ofRatio negative (scaled 10 digits 1 power).1 (scaled 10 digits 1 power).2 := by
  have hsmall : ¬(digits = 0 ∨ ((Nat.toDigits 10 digits).length : Int) + power < -330) := by
    rintro (hzero | hlt)
    · omega
    · exact hlow hlt
  simp only [ofDecimal, if_neg hsmall, if_neg hhigh]

/-- Moving zeros between the digits and the power changes nothing. -/
theorem ofDecimal_mul_pow (negative : Bool) (digits k : Nat) (power : Int) :
    ofDecimal negative (digits * 10 ^ k) power = ofDecimal negative digits (power + k) := by
  rcases Nat.eq_zero_or_pos digits with rfl | hpos
  · simp only [ofDecimal, Nat.zero_mul, true_or, if_true]
  have hpos' : 0 < digits * 10 ^ k := Nat.mul_pos hpos (Nat.pow_pos (by decide))
  have hleading : ((Nat.toDigits 10 (digits * 10 ^ k)).length : Int) + power =
      (Nat.toDigits 10 digits).length + (power + k) := by
    rw [length_toDigits_mul_pow hpos]
    push_cast
    ring
  by_cases hlow : ((Nat.toDigits 10 digits).length : Int) + (power + k) < -330
  · simp only [ofDecimal, hleading, hlow, or_true, if_true]
  by_cases hhigh : 310 < ((Nat.toDigits 10 digits).length : Int) + (power + k)
  · simp only [ofDecimal, hleading, hlow, hhigh, hpos.ne', hpos'.ne', or_self, if_false, if_true]
  rw [ofDecimal_of_leading hpos hlow hhigh,
    ofDecimal_of_leading hpos' (hleading ▸ hlow) (hleading ▸ hhigh)]
  refine ofRatio_congr (scaled_num_pos (by decide) hpos') (scaled_pos (by decide) one_pos)
    (scaled_pos (by decide) one_pos) ?_
  rw [scaled_div (by decide), scaled_div (by decide)]
  push_cast
  rw [div_one, div_one, zpow_add₀ (by norm_num), zpow_natCast]
  ring

/-- The sign of a decimal is the sign of the number that is nearest. -/
theorem ofDecimal_of_ofDecimal_false {digits significand : Nat} {power exponent : Int}
    (h : ofDecimal false digits power = finite false significand exponent) (negative : Bool) :
    ofDecimal negative digits power = finite negative significand exponent := by
  simp only [ofDecimal, ofRatio] at h ⊢
  split_ifs at h ⊢ <;>
    · cases h
      rfl

/-- Reading a decimal gives a number of the format. -/
theorem isProper_ofDecimal (negative : Bool) (digits : Nat) (power : Int) :
    (ofDecimal negative digits power).IsProper := by
  simp only [ofDecimal]
  split_ifs with hsmall hgreat
  · exact ⟨le_rfl, by decide, by decide, Or.inl rfl⟩
  · trivial
  · have hpos : 0 < digits := Nat.pos_of_ne_zero fun hzero => hsmall (Or.inl hzero)
    exact isProper_ofRatio negative (scaled_num_pos (by decide) hpos)
      (scaled_pos (by decide) one_pos)

/-- A decimal that is a number of the format is read as that number. -/
theorem ofDecimal_of_eq {negative : Bool} {significand : Nat} {exponent : Int}
    (hproper : (finite negative significand exponent).IsProper) (hne : 0 < significand)
    {digits : Nat} {power : Int}
    (h : (digits : ℚ) * 10 ^ power = significand * 2 ^ exponent) :
    ofDecimal negative digits power = finite negative significand exponent := by
  have hvalue : (0 : ℚ) < digits * 10 ^ power := by
    rw [h]
    positivity
  have hpos : 0 < digits := by
    rcases Nat.eq_zero_or_pos digits with rfl | hpos
    · simp at hvalue
    · exact hpos
  obtain ⟨hlower, hupper⟩ := toDigits_bounds hpos
  have hlength : 0 < (Nat.toDigits 10 digits).length := Nat.length_toDigits_pos
  set length := (Nat.toDigits 10 digits).length with hlengthdef
  have hlow : -330 < (length : Int) + power := by
    have hsmallest : (2 : Nat) ^ 1074 < 10 ^ 330 := by decide +kernel
    have hlt : (10 : ℚ) ^ (-330 : Int) < 10 ^ ((length : Int) + power) :=
      calc (10 : ℚ) ^ (-330 : Int) < 1 * 2 ^ (-1074 : Int) := by
            rw [one_mul, zpow_neg, zpow_neg, inv_lt_inv₀ (by positivity) (by positivity)]
            exact_mod_cast hsmallest
        _ ≤ significand * 2 ^ exponent := by
          gcongr
          · exact_mod_cast hne
          · exact one_le_two
          · exact hproper.1
        _ = digits * 10 ^ power := h.symm
        _ < 10 ^ (length : Int) * 10 ^ power := by
          gcongr
          exact_mod_cast hupper
        _ = 10 ^ ((length : Int) + power) := (zpow_add₀ (by norm_num) _ _).symm
    exact (zpow_lt_zpow_iff_right₀ (by norm_num)).1 hlt
  have hhigh : (length : Int) + power < 311 := by
    have hgreatest : (2 * 2 ^ 52) * 2 ^ 971 < (10 : Nat) ^ 309 := by decide +kernel
    have hlt : (10 : ℚ) ^ ((length : Int) - 1 + power) < 10 ^ (309 : Int) :=
      calc (10 : ℚ) ^ ((length : Int) - 1 + power) = 10 ^ ((length : Int) - 1) * 10 ^ power :=
            zpow_add₀ (by norm_num) _ _
        _ ≤ digits * 10 ^ power := by
          gcongr
          rw [show (length : Int) - 1 = ((length - 1 : Nat) : Int) by omega]
          exact_mod_cast hlower
        _ = significand * 2 ^ exponent := h
        _ ≤ (2 * 2 ^ 52) * 2 ^ (971 : Int) := by
          gcongr
          · exact_mod_cast hproper.2.2.1.le
          · exact one_le_two
          · exact hproper.2.1
        _ < 10 ^ (309 : Int) := by exact_mod_cast hgreatest
    have := (zpow_lt_zpow_iff_right₀ (by norm_num)).1 hlt
    omega
  rw [ofDecimal_of_leading hpos (by omega) (by omega)]
  refine ofRatio_of_eq hproper hne (scaled_num_pos (by decide) hpos)
    (scaled_pos (by decide) one_pos) ?_
  rw [scaled_div (by decide)]
  push_cast
  rw [div_one, h]

end Binary64

end TsQuery
