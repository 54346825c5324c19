import Mathlib
import TsQuery.Json.Write
import TsQuery.Proofs.Json.Number
import TsQuery.Proofs.Number.Shortest

/-!
# Written numbers

Integers and finite floating-point numbers are written as numbers of JSON that denote them
(`Json.exists_number_int`, `Json.exists_number_real`).  A decimal is written without an exponent if
its point stands near its digits: behind zeros, between the digits, or in front of zeros.
-/

namespace TsQuery

/-! ### Digits -/

namespace Numeral

/-- The digits of a positive number do not begin with a zero. -/
theorem toDigits_eq_cons {n : Nat} (h : 0 < n) :
    ∃ c digits, Nat.toDigits 10 n = c :: digits ∧ c ≠ '0' := by
  induction n using Nat.strong_induction_on with
  | h n ih =>
    by_cases hsmall : n < 10
    · refine ⟨Nat.digitChar n, [], Nat.toDigits_of_lt_base hsmall, ?_⟩
      interval_cases n <;> decide
    · obtain ⟨c, digits, hdigits, hc⟩ := ih (n / 10) (by omega) (by omega)
      refine ⟨c, digits ++ [Nat.digitChar (n % 10)], ?_, hc⟩
      rw [Nat.toDigits_of_base_le (by decide) (not_lt.1 hsmall), hdigits, List.cons_append]

theorem isDigit_of_mem_toDigits {n : Nat} : ∀ c ∈ Nat.toDigits 10 n, c.isDigit = true :=
  fun _ hc => Nat.isDigit_of_mem_toDigits (by decide) (by decide) hc

theorem isDigit_of_mem_replicate {n : Nat} : ∀ c ∈ List.replicate n '0', c.isDigit = true := by
  intro c hc
  rw [List.eq_of_mem_replicate hc]
  rfl

/-- Zeros behind digits are powers of ten. -/
theorem ofDigitChars_append_zeros (digits : List Char) (k : Nat) :
    Nat.ofDigitChars 10 (digits ++ List.replicate k '0') 0 =
      Nat.ofDigitChars 10 digits 0 * 10 ^ k := by
  rw [Nat.ofDigitChars_append, Nat.ofDigitChars_replicate_zero, Nat.mul_comm]

/-- Zeros in front of digits change nothing. -/
theorem ofDigitChars_zeros_append (k : Nat) (digits : List Char) :
    Nat.ofDigitChars 10 (List.replicate k '0' ++ digits) 0 = Nat.ofDigitChars 10 digits 0 := by
  rw [Nat.ofDigitChars_append, Nat.ofDigitChars_replicate_zero, Nat.mul_zero]

end Numeral

namespace Json

/-! ### Integers -/

/-- The digits of a natural number with a sign. -/
def Number.ofNat (negative : Bool) (n : Nat) : Number where
  negative := negative
  whole := Nat.toDigits 10 n
  fraction := []
  exponent? := none
  isDigit_whole := Numeral.isDigit_of_mem_toDigits
  isDigit_fraction := nofun
  whole_eq := by
    rcases Nat.eq_zero_or_pos n with rfl | hn
    · exact Or.inl (by decide)
    · exact Or.inr (Numeral.toDigits_eq_cons hn)

theorem Number.unsigned_ofNat (negative : Bool) (n : Nat) :
    (Number.ofNat negative n).unsigned = Nat.toDigits 10 n := by
  simp [Number.unsigned, Number.fractionChars, Number.exponentChars, Number.ofNat]

theorem Number.value_ofNat (negative : Bool) (n : Nat) :
    (Number.ofNat negative n).value = .int (if negative then -(n : Int) else n) := by
  have hinteger : (Number.ofNat negative n).IsInteger := ⟨rfl, rfl⟩
  rw [Number.value, if_pos hinteger, Number.ofNat, Nat.ofDigitChars_ten_toDigits]

/-- An integer is written as a number that denotes it, without fraction and exponent and with the
digits of its absolute value. -/
theorem exists_number_int (n : Int) :
    ∃ number : Number, Numeral.write n = Text.ofChars number.chars ∧ number.value = .int n ∧
      number.whole = Nat.toDigits 10 n.natAbs := by
  cases n with
  | ofNat n =>
    refine ⟨.ofNat false n, ?_, ?_, rfl⟩
    · rw [Number.chars, if_neg (by simp [Number.ofNat]), Number.unsigned_ofNat]
      rfl
    · rw [Number.value_ofNat]
      rfl
  | negSucc n =>
    refine ⟨.ofNat true (n + 1), ?_, ?_, rfl⟩
    · rw [Number.chars, if_pos (by simp [Number.ofNat]), Number.unsigned_ofNat]
      rfl
    · rw [Number.value_ofNat]
      rfl

/-! ### Decimals -/

/-- An exponent with its sign and at least two digits. -/
def Exponent.ofInt (power : Int) : Exponent where
  letter := 'e'
  sign? := some (if power < 0 then '-' else '+')
  digits :=
    if (Nat.toDigits 10 power.natAbs).length < 2 then '0' :: Nat.toDigits 10 power.natAbs
    else Nat.toDigits 10 power.natAbs
  letter_eq := Or.inl rfl
  sign_eq := by
    intro sign hsign
    cases hsign
    split
    · exact Or.inr rfl
    · exact Or.inl rfl
  isDigit := by
    split
    · exact List.forall_mem_cons.2 ⟨rfl, Numeral.isDigit_of_mem_toDigits⟩
    · exact Numeral.isDigit_of_mem_toDigits
  ne_nil := by
    split
    · exact List.cons_ne_nil _ _
    · exact Nat.toDigits_ne_nil

theorem Exponent.chars_ofInt (power : Int) :
    (Exponent.ofInt power).chars = 'e' :: Binary64.exponentChars power :=
  rfl

theorem Exponent.value_ofInt (power : Int) : (Exponent.ofInt power).value = power := by
  have hdigits : Nat.ofDigitChars 10 (Exponent.ofInt power).digits 0 = power.natAbs := by
    unfold Exponent.ofInt
    dsimp only
    split
    · have hzero := Numeral.ofDigitChars_zeros_append 1 (Nat.toDigits 10 power.natAbs)
      rw [Nat.ofDigitChars_ten_toDigits] at hzero
      exact hzero
    · exact Nat.ofDigitChars_ten_toDigits
  rw [Exponent.value, hdigits]
  by_cases hneg : power < 0
  · rw [if_pos (by simp [Exponent.ofInt, hneg])]
    omega
  · rw [if_neg (by simp [Exponent.ofInt, hneg])]
    omega

/-- A number that is no integer denotes the decimal of its digits, zeros behind them taken off. -/
theorem Number.value_eq {number : Number} (hreal : ¬number.IsInteger) {digits k : Nat}
    (hdigits : Nat.ofDigitChars 10 (number.whole ++ number.fraction) 0 = digits * 10 ^ k) :
    number.value = .real (.ofDecimal number.negative digits
      ((number.exponent?.map Exponent.value).getD 0 - number.fraction.length + k)) := by
  rw [Number.value, if_neg hreal, hdigits, Binary64.ofDecimal_mul_pow]

/-- Digits behind a point and zeros are a number. -/
theorem exists_number_zeros_append (negative : Bool) (n k : Nat) :
    ∃ number : Number, number.negative = negative ∧
      number.unsigned = ['0', '.'] ++ List.replicate k '0' ++ Nat.toDigits 10 n ∧
      number.value =
        .real (.ofDecimal negative n (-(k : Int) - (Nat.toDigits 10 n).length)) := by
  have hne : List.replicate k '0' ++ Nat.toDigits 10 n ≠ [] :=
    fun hnil => Nat.toDigits_ne_nil (List.append_eq_nil_iff.1 hnil).2
  let number : Number :=
    { negative := negative
      whole := ['0']
      fraction := List.replicate k '0' ++ Nat.toDigits 10 n
      exponent? := none
      isDigit_whole := by simp
      isDigit_fraction := List.forall_mem_append.2
        ⟨Numeral.isDigit_of_mem_replicate, Numeral.isDigit_of_mem_toDigits⟩
      whole_eq := Or.inl rfl }
  refine ⟨number, rfl, ?_, ?_⟩
  · rw [Number.unsigned, Number.fractionChars, if_neg hne]
    simp [number, Number.exponentChars]
  · have hreal : ¬number.IsInteger := Number.not_isInteger hne
    have hdigits : Nat.ofDigitChars 10 (number.whole ++ number.fraction) 0 = n * 10 ^ 0 := by
      have hzeros := Numeral.ofDigitChars_zeros_append (k + 1) (Nat.toDigits 10 n)
      rw [Nat.ofDigitChars_ten_toDigits] at hzeros
      rw [Nat.pow_zero, Nat.mul_one]
      exact hzeros
    rw [Number.value_eq hreal hdigits]
    congr 2
    simp [number]
    omega

section

variable (negative : Bool) {n : Nat} (hn : 0 < n)

include hn

/-- Digits with a point between them are a number. -/
theorem exists_number_take_drop {k : Nat} (hk : 0 < k) (hlt : k < (Nat.toDigits 10 n).length) :
    ∃ number : Number, number.negative = negative ∧
      number.unsigned = (Nat.toDigits 10 n).take k ++ ['.'] ++ (Nat.toDigits 10 n).drop k ∧
      number.value = .real (.ofDecimal negative n (k - (Nat.toDigits 10 n).length)) := by
  have hne : (Nat.toDigits 10 n).drop k ≠ [] := by
    intro hnil
    have := List.drop_eq_nil_iff.1 hnil
    omega
  let number : Number :=
    { negative := negative
      whole := (Nat.toDigits 10 n).take k
      fraction := (Nat.toDigits 10 n).drop k
      exponent? := none
      isDigit_whole := fun c hc => Numeral.isDigit_of_mem_toDigits c (List.mem_of_mem_take hc)
      isDigit_fraction := fun c hc => Numeral.isDigit_of_mem_toDigits c (List.mem_of_mem_drop hc)
      whole_eq := by
        obtain ⟨c, digits, hcons, hc⟩ := Numeral.toDigits_eq_cons hn
        obtain ⟨k, rfl⟩ : ∃ m, k = m + 1 := ⟨k - 1, by omega⟩
        exact Or.inr ⟨c, digits.take k, by rw [hcons, List.take_succ_cons], hc⟩ }
  refine ⟨number, rfl, ?_, ?_⟩
  · rw [Number.unsigned, Number.fractionChars, if_neg hne]
    simp [number, Number.exponentChars]
  · have hreal : ¬number.IsInteger := Number.not_isInteger hne
    have hdigits : Nat.ofDigitChars 10 (number.whole ++ number.fraction) 0 = n * 10 ^ 0 := by
      rw [Nat.pow_zero, Nat.mul_one]
      simp only [number]
      rw [List.take_append_drop, Nat.ofDigitChars_ten_toDigits]
    rw [Number.value_eq hreal hdigits]
    congr 2
    simp [number]
    omega

/-- Digits in front of zeros, a point and one more zero are a number. -/
theorem exists_number_append_zeros (k : Nat) :
    ∃ number : Number, number.negative = negative ∧
      number.unsigned = Nat.toDigits 10 n ++ List.replicate k '0' ++ ['.', '0'] ∧
      number.value = .real (.ofDecimal negative n k) := by
  let number : Number :=
    { negative := negative
      whole := Nat.toDigits 10 n ++ List.replicate k '0'
      fraction := ['0']
      exponent? := none
      isDigit_whole := List.forall_mem_append.2
        ⟨Numeral.isDigit_of_mem_toDigits, Numeral.isDigit_of_mem_replicate⟩
      isDigit_fraction := by simp
      whole_eq := by
        obtain ⟨c, digits, hcons, hc⟩ := Numeral.toDigits_eq_cons hn
        exact Or.inr ⟨c, digits ++ List.replicate k '0', by rw [hcons, List.cons_append], hc⟩ }
  refine ⟨number, rfl, ?_, ?_⟩
  · simp [number, Number.unsigned, Number.fractionChars, Number.exponentChars]
  · have hreal : ¬number.IsInteger := Number.not_isInteger (List.cons_ne_nil _ _)
    have hdigits : Nat.ofDigitChars 10 (number.whole ++ number.fraction) 0 = n * 10 ^ (k + 1) := by
      have hzeros := Numeral.ofDigitChars_append_zeros (Nat.toDigits 10 n) (k + 1)
      rw [Nat.ofDigitChars_ten_toDigits, List.replicate_succ', ← List.append_assoc] at hzeros
      exact hzeros
    rw [Number.value_eq hreal hdigits]
    congr 2
    simp [number]

/-- Digits with a point behind the first, if there are more, and an exponent are a number. -/
theorem exists_number_exponent (power : Int) :
    ∃ number : Number, number.negative = negative ∧
      number.unsigned = (Nat.toDigits 10 n).take 1 ++
        (if ((Nat.toDigits 10 n).drop 1).isEmpty then [] else '.' :: (Nat.toDigits 10 n).drop 1) ++
        ['e'] ++ Binary64.exponentChars power ∧
      number.value =
        .real (.ofDecimal negative n (power + 1 - (Nat.toDigits 10 n).length)) := by
  obtain ⟨c, digits, hcons, hc⟩ := Numeral.toDigits_eq_cons hn
  have hdigit := Numeral.isDigit_of_mem_toDigits (n := n)
  have hvalue := Nat.ofDigitChars_ten_toDigits (n := n)
  rw [hcons] at hdigit hvalue ⊢
  obtain ⟨hdigitc, hdigits⟩ := List.forall_mem_cons.1 hdigit
  let number : Number :=
    { negative := negative
      whole := [c]
      fraction := digits
      exponent? := some (.ofInt power)
      isDigit_whole := by simpa using hdigitc
      isDigit_fraction := hdigits
      whole_eq := Or.inr ⟨c, [], rfl, hc⟩ }
  refine ⟨number, rfl, ?_, ?_⟩
  · simp [number, Number.unsigned, Number.fractionChars, Number.exponentChars,
      Exponent.chars_ofInt]
  · have hreal : ¬number.IsInteger := by simp [number, Number.IsInteger]
    have hwhole : Nat.ofDigitChars 10 (number.whole ++ number.fraction) 0 = n * 10 ^ 0 := by
      rw [Nat.pow_zero, Nat.mul_one]
      exact hvalue
    rw [Number.value_eq hreal hwhole]
    congr 2
    simp [number, Exponent.value_ofInt]

end

/-- A decimal other than zero is written as a number that denotes what is nearest to it. -/
theorem exists_number_decimal (negative : Bool) {decimal : Decimal} (hpos : 0 < decimal.digits) :
    ∃ number : Number, number.negative = negative ∧
      number.unsigned = Binary64.decimalChars decimal ∧
      number.value = .real (.ofDecimal negative decimal.digits decimal.power) := by
  simp only [Binary64.decimalChars]
  generalize hpoint : ((Nat.toDigits 10 decimal.digits).length : Int) + decimal.power = point
  by_cases hnear : -4 < point ∧ point ≤ 16
  · rw [if_pos hnear]
    by_cases hbefore : point ≤ 0
    · have hpower :
          decimal.power = -(point.natAbs : Int) - (Nat.toDigits 10 decimal.digits).length := by
        omega
      rw [if_pos hbefore, hpower]
      exact exists_number_zeros_append negative decimal.digits point.natAbs
    · rw [if_neg hbefore]
      by_cases hinside : point < (Nat.toDigits 10 decimal.digits).length
      · have hpower :
            decimal.power = (point.natAbs : Int) - (Nat.toDigits 10 decimal.digits).length := by
          omega
        rw [if_pos hinside, hpower]
        exact exists_number_take_drop negative hpos (by omega) (by omega)
      · have hpower : decimal.power = (decimal.power.natAbs : Int) := by omega
        rw [if_neg hinside, hpower, Int.natAbs_natCast]
        exact exists_number_append_zeros negative hpos decimal.power.natAbs
  · have hpower : decimal.power = point - 1 + 1 - (Nat.toDigits 10 decimal.digits).length := by
      omega
    rw [if_neg hnear, hpower]
    exact exists_number_exponent negative hpos (point - 1)

/-- Zero is written as a number. -/
theorem exists_number_zero (negative : Bool) :
    ∃ number : Number, number.negative = negative ∧ number.unsigned = ['0', '.', '0'] ∧
      number.value = .real (.finite negative 0 Binary64.minExponent) := by
  let number : Number :=
    { negative := negative
      whole := ['0']
      fraction := ['0']
      exponent? := none
      isDigit_whole := by simp
      isDigit_fraction := by simp
      whole_eq := Or.inl rfl }
  refine ⟨number, rfl, rfl, ?_⟩
  have hreal : ¬number.IsInteger := Number.not_isInteger (List.cons_ne_nil _ _)
  have hdigits : Nat.ofDigitChars 10 (number.whole ++ number.fraction) 0 = 0 * 10 ^ 0 := rfl
  rw [Number.value_eq hreal hdigits, Binary64.ofDecimal, if_pos (Or.inl rfl)]

/-- A finite number is written as a number that denotes it. -/
theorem exists_number_real {negative : Bool} {significand : Nat} {exponent : Int}
    (hproper : (Binary64.finite negative significand exponent).IsProper) :
    ∃ number : Number, Binary64.finiteText negative significand exponent =
        Text.ofChars number.chars ∧
      number.value = .real (.finite negative significand exponent) := by
  by_cases hzero : significand = 0
  · obtain ⟨number, hnegative, hunsigned, hvalue⟩ := exists_number_zero negative
    have hexponent : exponent = Binary64.minExponent := by
      obtain ⟨-, -, -, hmin | hleast⟩ := hproper
      · exact hmin
      · rw [hzero] at hleast
        exact absurd hleast (by decide)
    refine ⟨number, ?_, ?_⟩
    · rw [Binary64.finiteText, if_pos hzero, Number.chars, hnegative, hunsigned]
    · rw [hvalue, hzero, hexponent]
  · have hne : 0 < significand := Nat.pos_of_ne_zero hzero
    obtain ⟨number, hnegative, hunsigned, hvalue⟩ :=
      exists_number_decimal negative (Binary64.shortestDecimal_digits_pos hproper hne)
    have hread := Binary64.ofDecimal_shortestDecimal hproper hne
    refine ⟨number, ?_, ?_⟩
    · rw [Binary64.finiteText, if_neg hzero, Number.chars, hnegative, hunsigned]
    · rw [hvalue, Binary64.ofDecimal_of_ofDecimal_false hread]

end Json

end TsQuery
