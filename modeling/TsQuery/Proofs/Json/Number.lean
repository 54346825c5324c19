import TsQuery.Proofs.Json.Taken

/-!
# Numbers in JSON

A number has an integer part, and can have a sign, a fraction and an exponent (`Json.Number`).  It
is read as what it denotes (`Json.readNumber_chars`): an integer if it has neither fraction nor
exponent, and otherwise the binary floating-point number that is nearest to its decimal.
-/

namespace TsQuery

namespace Text

theorem ofChars_append (left right : List Char) :
    ofChars (left ++ right) = ofChars left ++ ofChars right :=
  List.map_append

theorem ofChars_cons (c : Char) (chars : List Char) :
    ofChars (c :: chars) = .char c :: ofChars chars :=
  rfl

theorem length_ofChars (chars : List Char) : (ofChars chars).length = chars.length :=
  List.length_map _

end Text

/-! ### Digits -/

namespace Numeral

/-- Digits are read as the number that they denote. -/
theorem value_ofChars {digits : List Char} (h : ∀ c ∈ digits, c.isDigit = true) :
    value ((Text.ofChars digits).filterMap asciiDigit?) = Nat.ofDigitChars 10 digits 0 := by
  rw [value, Nat.ofDigitChars_eq_foldl]
  generalize 0 = n
  induction digits generalizing n with
  | nil => rfl
  | cons c digits ih =>
    obtain ⟨hc, hdigits⟩ := List.forall_mem_cons.1 h
    have hdigit : asciiDigit? (.char c) = some (c.toNat - '0'.toNat) := if_pos hc
    rw [Text.ofChars_cons, List.filterMap_cons, hdigit, List.foldl_cons, List.foldl_cons]
    exact ih hdigits _

end Numeral

namespace Json

/-- Whether digits can end before a text. -/
def EndsDigits (rest : Text) : Prop :=
  ∀ c ∈ rest.head?, c.isDigit = false

/-- Digits are taken up to the first character that is none. -/
theorem takeWhile_isDigit {digits : List Char} (h : ∀ c ∈ digits, c.isDigit = true) {rest : Text}
    (hrest : EndsDigits rest) :
    (Text.ofChars digits ++ rest).takeWhile CodePoint.isDigit = Text.ofChars digits := by
  induction digits with
  | nil =>
    cases rest with
    | nil => rfl
    | cons c rest =>
      have hc : c.isDigit = false := hrest c rfl
      rw [Text.ofChars, List.map_nil, List.nil_append, List.takeWhile_cons,
        if_neg (by rw [hc]; decide)]
  | cons c digits ih =>
    obtain ⟨hc, hdigits⟩ := List.forall_mem_cons.1 h
    have hdigit : CodePoint.isDigit (.char c) = true := hc
    rw [Text.ofChars_cons, List.cons_append, List.takeWhile_cons, if_pos hdigit, ih hdigits]

/-! ### Numbers -/

/-- An exponent: its letter, its sign or none, and its digits. -/
structure Exponent where
  letter : Char
  sign? : Option Char
  digits : List Char
  letter_eq : letter = 'e' ∨ letter = 'E'
  sign_eq : ∀ sign ∈ sign?, sign = '+' ∨ sign = '-'
  isDigit : ∀ c ∈ digits, c.isDigit = true
  ne_nil : digits ≠ []

namespace Exponent

/-- The characters of an exponent. -/
def chars (exponent : Exponent) : List Char :=
  exponent.letter :: (exponent.sign?.toList ++ exponent.digits)

/-- The power of ten that an exponent denotes. -/
def value (exponent : Exponent) : Int :=
  if exponent.sign? = some '-' then -(Nat.ofDigitChars 10 exponent.digits 0 : Int)
  else Nat.ofDigitChars 10 exponent.digits 0

/-- The first digit of an exponent is neither of the signs. -/
theorem digits_cases (exponent : Exponent) :
    ∃ c digits, exponent.digits = c :: digits ∧ c ≠ '-' ∧ c ≠ '+' := by
  obtain ⟨c, digits, hdigits⟩ := List.exists_cons_of_ne_nil exponent.ne_nil
  have hc : c.isDigit = true := exponent.isDigit c (hdigits ▸ List.mem_cons_self)
  refine ⟨c, digits, hdigits, ?_, ?_⟩
  · rintro rfl
    exact absurd hc (by decide)
  · rintro rfl
    exact absurd hc (by decide)

/-- The sign and the digits of an exponent are read. -/
theorem exponentDigits_chars (exponent : Exponent) {rest : Text} (hrest : EndsDigits rest) :
    exponentDigits (Text.ofChars (exponent.sign?.toList ++ exponent.digits) ++ rest) =
      (decide (exponent.sign? = some '-'), Text.ofChars exponent.digits) := by
  have htake := takeWhile_isDigit exponent.isDigit hrest
  cases hsign : exponent.sign? with
  | none =>
    obtain ⟨c, digits, hdigits, hminus, hplus⟩ := exponent.digits_cases
    rw [Option.toList_none, List.nil_append]
    rw [hdigits, Text.ofChars_cons, List.cons_append] at htake ⊢
    unfold exponentDigits
    split
    · next heq =>
      cases heq
      exact absurd rfl hminus
    · next heq =>
      cases heq
      exact absurd rfl hplus
    · rw [htake]
      rfl
  | some sign =>
    rw [Option.toList_some, List.singleton_append, Text.ofChars_cons, List.cons_append]
    rcases exponent.sign_eq sign hsign with rfl | rfl
    · exact congrArg (Prod.mk false) htake
    · exact congrArg (Prod.mk true) htake

/-- An exponent is read as the power that it denotes. -/
theorem exponent?_chars (exponent : Exponent) {rest : Text} (hrest : EndsDigits rest) :
    exponent? (Text.ofChars exponent.chars ++ rest) =
      some (exponent.value, exponent.chars.length) := by
  have hdigits := exponent.exponentDigits_chars hrest
  have hletter : (CodePoint.char exponent.letter = .char 'e' ∨
      CodePoint.char exponent.letter = .char 'E') ∧ Text.ofChars exponent.digits ≠ [] := by
    refine ⟨exponent.letter_eq.imp (congrArg _) (congrArg _), ?_⟩
    exact fun hnil => exponent.ne_nil (List.map_eq_nil_iff.1 hnil)
  have hvalue := Numeral.value_ofChars exponent.isDigit
  rw [chars, Text.ofChars_cons, List.cons_append]
  simp only [exponent?, hdigits, if_pos hletter, hvalue, Option.bind_eq_bind, Option.bind_some,
    Option.pure_def, Option.some.injEq, Prod.mk.injEq]
  refine ⟨by simp only [value, decide_eq_true_eq], ?_⟩
  rw [Text.length_ofChars, List.length_cons, List.length_append]
  cases hsign : exponent.sign? with
  | none =>
    obtain ⟨c, digits, heq, hminus, hplus⟩ := exponent.digits_cases
    have hhead : ¬((Text.ofChars (Option.none.toList ++ exponent.digits) ++ rest).head? =
        some (.char '-') ∨ (Text.ofChars (Option.none.toList ++ exponent.digits) ++ rest).head? =
        some (.char '+')) := by
      rw [Option.toList_none, List.nil_append, heq, Text.ofChars_cons, List.cons_append,
        List.head?_cons]
      simp [hminus, hplus]
    rw [if_neg hhead]
    simp
  | some sign =>
    have hhead : (Text.ofChars ((some sign).toList ++ exponent.digits) ++ rest).head? =
        some (.char '-') ∨ (Text.ofChars ((some sign).toList ++ exponent.digits) ++ rest).head? =
        some (.char '+') := by
      rcases exponent.sign_eq sign hsign with rfl | rfl
      · exact Or.inr rfl
      · exact Or.inl rfl
    rw [if_pos hhead]
    simp
    omega

end Exponent

/-- A number: a minus sign or none, the digits of its integer part, which do not begin with a zero
unless it is all, the digits of its fraction, none if there is no point, and its exponent. -/
structure Number where
  negative : Bool
  whole : List Char
  fraction : List Char
  exponent? : Option Exponent
  isDigit_whole : ∀ c ∈ whole, c.isDigit = true
  isDigit_fraction : ∀ c ∈ fraction, c.isDigit = true
  whole_eq : whole = ['0'] ∨ ∃ c digits, whole = c :: digits ∧ c ≠ '0'

/-- Whether a number can end before a text. -/
def EndsNumber (rest : Text) : Prop :=
  ∀ c ∈ rest.head?, c.isDigit = false ∧ c ≠ .char '.' ∧ c ≠ .char 'e' ∧ c ≠ .char 'E'

theorem EndsNumber.endsDigits {rest : Text} (h : EndsNumber rest) : EndsDigits rest :=
  fun c hc => (h c hc).1

theorem EndsValue.endsNumber {rest : Text} (h : EndsValue rest) : EndsNumber rest := by
  intro c hc
  rcases h c hc with rfl | rfl <;> decide

/-- No exponent begins where a number can end. -/
theorem EndsNumber.exponent?_eq_none {rest : Text} (h : EndsNumber rest) :
    exponent? rest = none := by
  cases rest with
  | nil => rfl
  | cons c rest =>
    obtain ⟨-, -, hsmall, hgreat⟩ := h c rfl
    simp [exponent?, hsmall, hgreat]

namespace Number

/-- The characters of a fraction. -/
def fractionChars (number : Number) : List Char :=
  if number.fraction = [] then [] else '.' :: number.fraction

/-- The characters of an exponent. -/
def exponentChars (number : Number) : List Char :=
  (number.exponent?.map Exponent.chars).getD []

/-- The characters of a number but for the sign. -/
def unsigned (number : Number) : List Char :=
  number.whole ++ number.fractionChars ++ number.exponentChars

/-- The characters of a number. -/
def chars (number : Number) : List Char :=
  if number.negative then '-' :: number.unsigned else number.unsigned

/-- Whether a number is an integer by its form. -/
def IsInteger (number : Number) : Prop :=
  number.fraction = [] ∧ number.exponent? = none

instance (number : Number) : Decidable number.IsInteger :=
  inferInstanceAs (Decidable (_ ∧ _))

theorem not_isInteger {number : Number} (h : number.fraction ≠ []) : ¬number.IsInteger :=
  fun hinteger => h hinteger.1

/-- The value that a number denotes. -/
def value (number : Number) : Json :=
  if number.IsInteger then
    .int (if number.negative then -(Nat.ofDigitChars 10 number.whole 0 : Int)
      else Nat.ofDigitChars 10 number.whole 0)
  else
    .real (.ofDecimal number.negative (Nat.ofDigitChars 10 (number.whole ++ number.fraction) 0)
      ((number.exponent?.map Exponent.value).getD 0 - number.fraction.length))

/-- The integer part is read up to its end. -/
theorem integerPart_whole (number : Number) {rest : Text} (hrest : EndsDigits rest) :
    integerPart (Text.ofChars number.whole ++ rest) = Text.ofChars number.whole := by
  rcases number.whole_eq with hzero | ⟨c, digits, hwhole, hc⟩
  · rw [hzero]
    rfl
  · have htake := takeWhile_isDigit number.isDigit_whole hrest
    rw [hwhole, Text.ofChars_cons, List.cons_append] at htake ⊢
    unfold integerPart
    split
    · next heq =>
      cases heq
      exact absurd rfl hc
    · exact htake

theorem whole_ne_nil (number : Number) : number.whole ≠ [] := by
  rcases number.whole_eq with hzero | ⟨c, digits, hwhole, -⟩
  · rw [hzero]
    exact List.cons_ne_nil _ _
  · rw [hwhole]
    exact List.cons_ne_nil _ _

/-- The fraction is read up to its end. -/
theorem fraction_fractionChars (number : Number) {rest : Text} (hrest : EndsDigits rest)
    (hpoint : rest.head? ≠ some (.char '.')) :
    Json.fraction (Text.ofChars number.fractionChars ++ rest) = Text.ofChars number.fraction := by
  unfold fractionChars
  split
  · next hnil =>
    rw [hnil]
    cases rest with
    | nil => rfl
    | cons c rest =>
      unfold Json.fraction
      split
      · next heq =>
        cases heq
        exact absurd rfl hpoint
      · rfl
  · exact takeWhile_isDigit number.isDigit_fraction hrest

/-- Behind the fraction there is an exponent, or what follows the number. -/
theorem exponentChars_append (number : Number) {rest : Text} (hrest : EndsNumber rest) :
    EndsDigits (Text.ofChars number.exponentChars ++ rest) ∧
      (Text.ofChars number.exponentChars ++ rest).head? ≠ some (.char '.') ∧
      Json.exponent? (Text.ofChars number.exponentChars ++ rest) =
        number.exponent?.map fun exponent => (exponent.value, exponent.chars.length) := by
  unfold exponentChars
  cases number.exponent? with
  | none =>
    exact ⟨hrest.endsDigits, fun hpoint => (hrest _ hpoint).2.1 rfl, hrest.exponent?_eq_none⟩
  | some exponent =>
    refine ⟨?_, ?_, exponent.exponent?_chars hrest.endsDigits⟩
    · intro c hc
      cases hc
      rcases exponent.letter_eq with heq | heq <;> rw [heq] <;> rfl
    · intro hpoint
      have hletter : CodePoint.char exponent.letter = .char '.' := Option.some.inj hpoint
      rcases exponent.letter_eq with heq | heq <;> rw [heq] at hletter <;> cases hletter

/-- What follows the integer part does not begin with a digit. -/
theorem endsDigits_fractionChars (number : Number) {rest : Text} (hrest : EndsDigits rest) :
    EndsDigits (Text.ofChars number.fractionChars ++ rest) := by
  unfold fractionChars
  split
  · exact hrest
  · intro c hc
    cases hc
    rfl

/-- The digits of a number are read as what they denote. -/
theorem value_digits (number : Number) :
    Numeral.value ((Text.ofChars number.whole ++ Text.ofChars number.fraction).filterMap
        Numeral.asciiDigit?) =
      Nat.ofDigitChars 10 (number.whole ++ number.fraction) 0 := by
  have hdigits : ∀ c ∈ number.whole ++ number.fraction, c.isDigit = true := by
    intro c hc
    rcases List.mem_append.1 hc with hwhole | hfraction
    · exact number.isDigit_whole c hwhole
    · exact number.isDigit_fraction c hfraction
  rw [← Text.ofChars_append, Numeral.value_ofChars hdigits]

/-- A number is read as what it denotes, unless it is an integer with too many digits. -/
theorem readUnsigned_unsigned (number : Number)
    (hlength : number.IsInteger → number.whole.length ≤ maxDigits) {rest : Text}
    (hrest : EndsNumber rest) :
    readUnsigned number.negative (Text.ofChars number.unsigned ++ rest) =
      some (.ok number.value, number.unsigned.length) := by
  obtain ⟨hdigits, hpoint, hexponent⟩ := number.exponentChars_append hrest
  have hwhole := number.integerPart_whole (number.endsDigits_fractionChars hdigits)
  have hfraction := number.fraction_fractionChars hdigits hpoint
  have hne : ¬Text.ofChars number.whole = [] :=
    fun hnil => number.whole_ne_nil (List.map_eq_nil_iff.1 hnil)
  have htext : Text.ofChars number.unsigned ++ rest = Text.ofChars number.whole ++
      (Text.ofChars number.fractionChars ++ (Text.ofChars number.exponentChars ++ rest)) := by
    rw [unsigned, Text.ofChars_append, Text.ofChars_append, List.append_assoc, List.append_assoc]
  have hpart : (if Text.ofChars number.fraction = [] then 0
      else number.fraction.length + 1) = number.fractionChars.length := by
    unfold fractionChars
    by_cases hnil : number.fraction = []
    · simp [hnil, Text.ofChars]
    · have hnil' : ¬Text.ofChars number.fraction = [] := fun h => hnil (List.map_eq_nil_iff.1 h)
      rw [if_neg hnil', if_neg hnil, List.length_cons]
  have hdrop : (Text.ofChars number.whole ++ (Text.ofChars number.fractionChars ++
      (Text.ofChars number.exponentChars ++ rest))).drop
        (number.whole.length + number.fractionChars.length) =
      Text.ofChars number.exponentChars ++ rest := by
    rw [← List.append_assoc, ← Text.ofChars_append, ← List.length_append, ← Text.length_ofChars,
      List.drop_left]
  have hdropwhole : (Text.ofChars number.whole ++ (Text.ofChars number.fractionChars ++
      (Text.ofChars number.exponentChars ++ rest))).drop number.whole.length =
      Text.ofChars number.fractionChars ++ (Text.ofChars number.exponentChars ++ rest) := by
    rw [← Text.length_ofChars, List.drop_left]
  have hlengths : number.unsigned.length = number.whole.length + number.fractionChars.length +
      number.exponentChars.length := by
    rw [unsigned, List.length_append, List.length_append]
  rw [htext, hlengths]
  simp only [readUnsigned, hwhole, if_neg hne, Text.length_ofChars, hdropwhole, hfraction, hpart,
    hdrop, hexponent, value_digits]
  have hfractionnil : Text.ofChars number.fraction = [] ↔ number.fraction = [] :=
    List.map_eq_nil_iff
  cases hexp : number.exponent? with
  | some exponent =>
    have hreal : ¬number.IsInteger := fun h => absurd (hexp ▸ h.2) nofun
    simp only [Option.map_some, value, if_neg hreal, hexp, Option.getD_some, exponentChars]
  | none =>
    simp only [Option.map_none, exponentChars, hexp, Option.getD_none, List.length_nil,
      Nat.add_zero]
    by_cases hnil : number.fraction = []
    · have hinteger : number.IsInteger := ⟨hnil, hexp⟩
      rw [if_neg (Classical.not_not.2 (hfractionnil.2 hnil)),
        if_neg (Nat.not_lt.2 (hlength hinteger)), value, if_pos hinteger, hnil, List.append_nil]
    · have hreal : ¬number.IsInteger := fun h => hnil h.1
      rw [if_pos (mt hfractionnil.1 hnil), value, if_neg hreal, hexp]
      simp only [Option.map_none, Option.getD_none, Int.zero_sub]

/-- The first character of a number but for the sign is a digit. -/
theorem unsigned_eq_cons (number : Number) :
    ∃ c chars, number.unsigned = c :: chars ∧ c.isDigit = true := by
  obtain ⟨c, digits, hwhole⟩ := List.exists_cons_of_ne_nil number.whole_ne_nil
  refine ⟨c, digits ++ number.fractionChars ++ number.exponentChars, ?_, ?_⟩
  · rw [unsigned, hwhole]
    rfl
  · exact number.isDigit_whole c (hwhole ▸ List.mem_cons_self)

end Number

/-- A number is read as what it denotes, unless it is an integer with too many digits. -/
theorem readNumber_chars (number : Number)
    (hlength : number.IsInteger → number.whole.length ≤ maxDigits) {rest : Text}
    (hrest : EndsNumber rest) :
    Gives (readNumber (Text.ofChars number.chars ++ rest)) number.value rest := by
  have hread := number.readUnsigned_unsigned hlength hrest
  have hdrop : (Text.ofChars number.unsigned ++ rest).drop number.unsigned.length = rest := by
    rw [← Text.length_ofChars, List.drop_left]
  obtain ⟨c, chars, hunsigned, hc⟩ := number.unsigned_eq_cons
  have hlt : rest.length < (Text.ofChars number.unsigned ++ rest).length := by
    rw [hunsigned, List.length_append, Text.length_ofChars, List.length_cons]
    omega
  unfold Number.chars
  cases hsign : number.negative with
  | true =>
    rw [hsign] at hread
    have hlt' : rest.length < (.char '-' :: (Text.ofChars number.unsigned ++ rest)).length :=
      Nat.lt_succ_of_lt hlt
    refine ⟨hlt', ?_⟩
    simp only [if_true, Text.ofChars_cons, List.cons_append, readNumber, hread, hdrop]
    rw [dif_pos hlt']
    rfl
  | false =>
    rw [hsign] at hread
    refine ⟨hlt, ?_⟩
    have hminus : c ≠ '-' := by
      rintro rfl
      exact absurd hc (by decide)
    rw [hunsigned, Text.ofChars_cons, List.cons_append] at hread hdrop hlt
    simp only [Bool.false_eq_true, if_false, hunsigned, Text.ofChars_cons, List.cons_append,
      readNumber, List.cons.injEq, CodePoint.char.injEq, hminus, false_and, imp_false,
      not_false_eq_true, implies_true, hread, hdrop]
    rw [dif_pos hlt]
    rfl

end Json

end TsQuery
