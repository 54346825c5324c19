import Mathlib
import TsQuery.Number.Shortest
import TsQuery.Proofs.Number.Rounding

/-!
# The shortest decimal of a number

The decimal that is written for a number reads back as the number
(`Binary64.ofDecimal_shortestDecimal`).  A decimal of some length is only taken if it does, and so
does the exact decimal that stands behind them.  Moving trailing zeros into the power changes
nothing.
-/

namespace TsQuery

namespace Binary64

/-- A decimal that is found reads back as the number. -/
theorem ofDecimal_of_decimalOfLength? {significand length : Nat} {exponent : Int}
    {decimal : Decimal} (h : decimalOfLength? significand exponent length = some decimal) :
    ofDecimal false decimal.digits decimal.power = finite false significand exponent := by
  simp only [decimalOfLength?, beq_iff_eq] at h
  set ratio := scaled 2 significand 1 exponent with hratio
  set power := leadingPower ratio.1 ratio.2 - length + 1 with hpower
  set shifted := scaled 10 ratio.1 ratio.2 (-power) with hshifted
  split_ifs at h with hlower hupper hupper
  · -- Both neighbours read back, and rounding chooses one of them.
    cases h
    rcases roundedRatio_eq_or shifted.1 shifted.2 with heq | heq
    · simp only [heq, hlower]
    · simp only [heq, hupper]
  · cases h
    exact hlower
  · cases h
    exact hupper

/-- The exact decimal reads back as the number. -/
theorem ofDecimal_exactDecimal {significand : Nat} {exponent : Int}
    (hproper : (finite false significand exponent).IsProper) (hne : 0 < significand) :
    ofDecimal false (exactDecimal significand exponent).digits
      (exactDecimal significand exponent).power = finite false significand exponent := by
  refine ofDecimal_of_eq hproper hne ?_
  unfold exactDecimal
  split
  · next hneg =>
    obtain ⟨n, rfl⟩ : ∃ n : Nat, exponent = -(n : Int) := ⟨exponent.natAbs, by omega⟩
    have hpow : (Nat.pow 5 (-(n : Int)).natAbs : ℚ) = 5 ^ n := by
      rw [Int.natAbs_neg, Int.natAbs_natCast]
      exact_mod_cast rfl
    have hten : (10 : ℚ) ^ n = 2 ^ n * 5 ^ n := by
      rw [← mul_pow]
      norm_num
    rw [Nat.cast_mul, hpow, zpow_neg, zpow_neg, zpow_natCast, zpow_natCast, hten]
    field_simp
  · next hneg =>
    obtain ⟨n, rfl⟩ : ∃ n : Nat, exponent = (n : Int) := ⟨exponent.natAbs, by omega⟩
    have hpow : (Nat.pow 2 (n : Int).natAbs : ℚ) = 2 ^ n := by
      rw [Int.natAbs_natCast]
      exact_mod_cast rfl
    rw [Nat.cast_mul, hpow, zpow_zero, mul_one, zpow_natCast]

/-- Moving trailing zeros into the power changes nothing. -/
theorem ofDecimal_trimmed (negative : Bool) (fuel : Nat) (decimal : Decimal) :
    ofDecimal negative (decimal.trimmed fuel).digits (decimal.trimmed fuel).power =
      ofDecimal negative decimal.digits decimal.power := by
  induction fuel generalizing decimal with
  | zero => rfl
  | succ fuel ih =>
    rw [Decimal.trimmed]
    split
    · next hzero =>
      have hdigits : decimal.digits = decimal.digits / 10 * 10 ^ 1 := by omega
      rw [ih]
      conv_rhs => rw [hdigits]
      exact (ofDecimal_mul_pow negative _ 1 decimal.power).symm
    · rfl

/-- The decimal that is written for a number reads back as the number. -/
theorem ofDecimal_shortestDecimal {significand : Nat} {exponent : Int}
    (hproper : (finite false significand exponent).IsProper) (hne : 0 < significand) :
    ofDecimal false (shortestDecimal significand exponent).digits
      (shortestDecimal significand exponent).power = finite false significand exponent := by
  rw [shortestDecimal, ofDecimal_trimmed]
  cases hfound : (List.range 17).findSome? fun n =>
      decimalOfLength? significand exponent (n + 1) with
  | none => exact ofDecimal_exactDecimal hproper hne
  | some decimal =>
    obtain ⟨n, -, hsome⟩ := List.exists_of_findSome?_eq_some hfound
    exact ofDecimal_of_decimalOfLength? hsome

/-- The decimal that is written for a number other than zero is not zero. -/
theorem shortestDecimal_digits_pos {significand : Nat} {exponent : Int}
    (hproper : (finite false significand exponent).IsProper) (hne : 0 < significand) :
    0 < (shortestDecimal significand exponent).digits := by
  by_contra hzero
  have hread := ofDecimal_shortestDecimal hproper hne
  rw [Nat.eq_zero_of_not_pos hzero] at hread
  simp only [ofDecimal, true_or, if_true] at hread
  cases hread
  exact absurd hne (lt_irrefl 0)

end Binary64

end TsQuery
