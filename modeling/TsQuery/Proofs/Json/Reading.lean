import Mathlib
import TsQuery.Proofs.Json.Taken
import TsQuery.Proofs.Number.Rounding

/-!
# The numbers that are read

Whatever a text holds, the integers in the value that is read from it have no more digits than an
integer is read from, and the floating-point numbers are numbers of the format
(`Json.hasFitNumbers_read`).  The proof goes along the text: each part of a value is read from a
shorter one.
-/

namespace TsQuery

namespace Json

/-- Whether all numbers in a value are such as can be read. -/
inductive HasFitNumbers : Json → Prop
  | null : HasFitNumbers null
  | bool (value : Bool) : HasFitNumbers (bool value)
  | int {value : Int} (hlength : (Nat.toDigits 10 value.natAbs).length ≤ maxDigits) :
    HasFitNumbers (int value)
  | real {value : Binary64} (hproper : value.IsProper) : HasFitNumbers (real value)
  | string (value : Text) : HasFitNumbers (string value)
  | array {elements : List Json} (helements : ∀ value ∈ elements, HasFitNumbers value) :
    HasFitNumbers (array elements)
  | object {members : List (Text × Json)} (hvalues : ∀ member ∈ members, HasFitNumbers member.2) :
    HasFitNumbers (object members)

/-! ### Numbers -/

/-- Digits denote a number below the power of ten of their length. -/
theorem value_lt (digits : Text) :
    Numeral.value (digits.filterMap Numeral.asciiDigit?) < 10 ^ digits.length := by
  have hfoldl : ∀ (digits : List Nat) (n k : Nat), (∀ d ∈ digits, d < 10) → n < 10 ^ k →
      digits.foldl (fun n digit => 10 * n + digit) n < 10 ^ (k + digits.length) := by
    intro digits
    induction digits with
    | nil => exact fun n k _ hn => hn
    | cons d digits ih =>
      intro n k hdigits hn
      obtain ⟨hd, hdigits⟩ := List.forall_mem_cons.1 hdigits
      have hnext : 10 * n + d < 10 ^ (k + 1) := by
        rw [Nat.pow_succ]
        omega
      have := ih (10 * n + d) (k + 1) hdigits hnext
      rwa [List.foldl_cons, List.length_cons, Nat.add_comm digits.length 1, ← Nat.add_assoc]
  have hdigit : ∀ d ∈ digits.filterMap Numeral.asciiDigit?, d < 10 := by
    intro d hd
    obtain ⟨c, -, hc⟩ := List.mem_filterMap.1 hd
    cases c with
    | half offset => exact absurd hc (by simp [Numeral.asciiDigit?, CodePoint.isDigit])
    | char c =>
      rw [Numeral.asciiDigit?] at hc
      split at hc
      · next hc' =>
        have hle := (Char.isDigit_iff_toNat.1 hc').2
        cases hc
        simp only [CodePoint.toNat]
        have hzero : '0'.toNat = 48 := rfl
        have hnine : '9'.toNat = 57 := rfl
        omega
      · cases hc
  have hlt := hfoldl _ 0 0 hdigit (by decide)
  rw [Nat.zero_add] at hlt
  exact lt_of_lt_of_le hlt (Nat.pow_le_pow_right (by decide) (List.length_filterMap_le _ _))

/-- A number that is read is fit. -/
theorem hasFitNumbers_readUnsigned {negative : Bool} {text : Text} {value : Json} {length : Nat}
    (h : readUnsigned negative text = some (.ok value, length)) : value.HasFitNumbers := by
  simp only [readUnsigned] at h
  split at h
  · cases h
  split at h
  · cases h
    exact .real (Binary64.isProper_ofDecimal _ _ _)
  split at h
  · cases h
    exact .real (Binary64.isProper_ofDecimal _ _ _)
  split at h
  · cases h
  · next hpart hlength =>
    cases h
    refine .int ?_
    have hlt := value_lt (integerPart text ++ fraction (text.drop (integerPart text).length))
    rw [not_not.1 hpart, List.append_nil] at hlt ⊢
    have hle : (integerPart text).length ≤ maxDigits := not_lt.1 hlength
    have habs : ∀ n : Nat, (if negative then -(n : Int) else n).natAbs = n := by
      intro n
      split
      · rw [Int.natAbs_neg, Int.natAbs_natCast]
      · rw [Int.natAbs_natCast]
    rw [habs]
    exact (Nat.length_toDigits_le_iff (by decide) (by decide)).2
      (lt_of_lt_of_le hlt (Nat.pow_le_pow_right (by decide) hle))

/-- A number that is read is fit. -/
theorem hasFitNumbers_readNumber {text : Text} {taken : Taken Json text}
    (h : readNumber text = .ok taken) : taken.value.HasFitNumbers := by
  simp only [readNumber] at h
  split at h
  · cases h
  · next result length hread =>
    -- With a sign in front and without, what follows is read in the same way.
    split at h
    all_goals
      split at h
      · cases result with
        | error stop => cases h
        | ok value =>
          cases h
          exact hasFitNumbers_readUnsigned hread
      · cases h

/-- A word or a number that is read is fit. -/
theorem hasFitNumbers_readScalar {text : Text} {taken : Taken Json text}
    (h : readScalar text = .ok taken) : taken.value.HasFitNumbers := by
  unfold readScalar at h
  split at h
  · next word value hfind =>
    have hmem := List.mem_of_find?_eq_some hfind
    dsimp only at h
    split at h
    · cases h
      simp only [words, List.mem_cons, List.not_mem_nil, or_false, Prod.mk.injEq] at hmem
      rcases hmem with ⟨-, rfl⟩ | ⟨-, rfl⟩ | ⟨-, rfl⟩ | ⟨-, rfl⟩ | ⟨-, rfl⟩ | ⟨-, rfl⟩
      · exact .null
      · exact .bool true
      · exact .bool false
      · exact .real trivial
      · exact .real trivial
      · exact .real trivial
    · cases h
  · exact hasFitNumbers_readNumber h

/-! ### Parts of a value -/

/-- Elements are a first one and, from a shorter text, the others. -/
theorem readElements_cases {text : Text} {taken : Taken (List Json) text}
    (h : readElements text = .ok taken) :
    ∃ first : Taken Json text, readValue text = .ok first ∧
      (taken.value = [first.value] ∨ ∃ (rest : Text) (more : Taken (List Json) rest),
        rest.length < text.length ∧ readElements rest = .ok more ∧
          taken.value = first.value :: more.value) := by
  rw [readElements] at h
  split at h
  · cases h
  · next first hfirst =>
    refine ⟨first, hfirst, ?_⟩
    split at h
    · cases h
    · next c rest hskip =>
      dsimp only at h
      split at h
      · cases h
        exact Or.inl rfl
      · split at h
        · obtain ⟨more, hmore, heq⟩ := exists_of_map_after h
          have hle := length_skip_le first.rest
          have hlerest := length_skip_le rest
          have hshorter := first.shorter
          rw [hskip, List.length_cons] at hle
          exact Or.inr ⟨skip rest, more, by omega, hmore, heq⟩
        · cases h

/-- Members are a first one, whose value is read from a shorter text, and the others, from a shorter
text too. -/
theorem readMembers_cases {text : Text} {taken : Taken Members text}
    (h : readMembers text = .ok taken) :
    ∃ (key : Text) (inner : Text) (value : Taken Json inner), inner.length < text.length ∧
      readValue inner = .ok value ∧
      (taken.value = [(key, value.value)] ∨ ∃ (rest : Text) (more : Taken Members rest),
        rest.length < text.length ∧ readMembers rest = .ok more ∧
          taken.value = (key, value.value) :: more.value) := by
  cases text with
  | nil =>
    rw [readMembers] at h
    cases h
  | cons quote body =>
    rw [readMembers] at h
    split at h
    · split at h
      · cases h
      · next key hkey =>
        split at h
        · cases h
        · next colon afterColon hcolon =>
          dsimp only at h
          split at h
          · split at h
            · cases h
            · next value hvalue =>
              have hle := length_skip_le key.rest
              have hlecolon := length_skip_le afterColon
              have hlevalue := length_skip_le value.rest
              have hkeyshorter := key.shorter
              have hvalueshorter := value.shorter
              rw [hcolon, List.length_cons] at hle
              have hinner : (skip afterColon).length < (quote :: body).length := by
                rw [List.length_cons]
                omega
              refine ⟨key.value, skip afterColon, value, hinner, hvalue, ?_⟩
              split at h
              · cases h
              · next c rest hskip =>
                rw [hskip, List.length_cons] at hlevalue
                have hlerest := length_skip_le rest
                split at h
                · cases h
                  exact Or.inl rfl
                · split at h
                  · obtain ⟨more, hmore, heq⟩ := exists_of_map_after h
                    exact Or.inr ⟨skip rest, more, by omega, hmore, heq⟩
                  · cases h
          · cases h
    · cases h

/-- A value is a string, an array or an object, read from a shorter text, or a word or a number. -/
theorem readValue_cases {text : Text} {taken : Taken Json text}
    (h : readValue text = .ok taken) :
    (∃ value, taken.value = string value) ∨ taken.value = array [] ∨ taken.value = object [] ∨
      (∃ (inner : Text) (elements : Taken (List Json) inner), inner.length < text.length ∧
        readElements inner = .ok elements ∧ taken.value = array elements.value) ∨
      (∃ (inner : Text) (members : Taken Members inner), inner.length < text.length ∧
        readMembers inner = .ok members ∧
          taken.value = object (Members.setAll [] members.value)) ∨
      ∃ scalar, readScalar text = .ok scalar ∧ taken.value = scalar.value := by
  cases text with
  | nil =>
    rw [readValue] at h
    cases h
  | cons c rest =>
    rw [readValue] at h
    have hle := length_skip_le rest
    have hlt : (skip rest).length < (c :: rest).length := Nat.lt_succ_of_le hle
    split at h
    · obtain ⟨value, -, heq⟩ := exists_of_map_after h
      exact Or.inl ⟨value.value, heq⟩
    split at h
    · split at h
      · cases h
        exact Or.inr (Or.inl rfl)
      · obtain ⟨elements, helements, heq⟩ := exists_of_map_after h
        exact Or.inr (Or.inr (Or.inr (Or.inl ⟨skip rest, elements, hlt, helements, heq⟩)))
    split at h
    · split at h
      · cases h
        exact Or.inr (Or.inr (Or.inl rfl))
      · obtain ⟨members, hmembers, heq⟩ := exists_of_map_after h
        exact Or.inr (Or.inr (Or.inr (Or.inr (Or.inl ⟨skip rest, members, hlt, hmembers, heq⟩))))
    · exact Or.inr (Or.inr (Or.inr (Or.inr (Or.inr ⟨taken, h, rfl⟩))))

/-! ### Values -/

/-- Setting members keeps what holds of all values. -/
theorem forall_mem_set {p : Json → Prop} {members : Members} {key : Text} {value : Json}
    (hvalue : p value) (h : ∀ member ∈ members, p member.2) :
    ∀ member ∈ Members.set key value members, p member.2 := by
  induction members with
  | nil => simpa [Members.set] using hvalue
  | cons first members ih =>
    obtain ⟨hfirst, hmembers⟩ := List.forall_mem_cons.1 h
    rw [Members.set]
    split
    · exact List.forall_mem_cons.2 ⟨hvalue, hmembers⟩
    · exact List.forall_mem_cons.2 ⟨hfirst, ih hmembers⟩

theorem forall_mem_setAll {p : Json → Prop} {members updates : Members}
    (hupdates : ∀ member ∈ updates, p member.2) (h : ∀ member ∈ members, p member.2) :
    ∀ member ∈ Members.setAll members updates, p member.2 := by
  induction updates generalizing members with
  | nil => exact h
  | cons update updates ih =>
    obtain ⟨hupdate, hupdates⟩ := List.forall_mem_cons.1 hupdates
    exact ih hupdates (forall_mem_set hupdate h)

/-- What is read from a text has fit numbers, be it a value, elements or members. -/
theorem hasFitNumbers_of_length_lt (n : Nat) :
    (∀ {text : Text} {taken : Taken Json text}, text.length < n → readValue text = .ok taken →
      taken.value.HasFitNumbers) ∧
    (∀ {text : Text} {taken : Taken (List Json) text}, text.length < n →
      readElements text = .ok taken → ∀ value ∈ taken.value, value.HasFitNumbers) ∧
    (∀ {text : Text} {taken : Taken Members text}, text.length < n →
      readMembers text = .ok taken → ∀ member ∈ taken.value, member.2.HasFitNumbers) := by
  induction n with
  | zero => exact ⟨nofun, nofun, nofun⟩
  | succ n ih =>
    obtain ⟨ihvalue, ihelements, ihmembers⟩ := ih
    have hvalue : ∀ {text : Text} {taken : Taken Json text}, text.length < n + 1 →
        readValue text = .ok taken → taken.value.HasFitNumbers := by
      intro text taken hlt h
      rcases readValue_cases h with ⟨value, heq⟩ | heq | heq |
        ⟨inner, elements, hinner, hread, heq⟩ | ⟨inner, members, hinner, hread, heq⟩ |
        ⟨scalar, hread, heq⟩ <;> rw [heq]
      · exact .string value
      · exact .array nofun
      · exact .object nofun
      · exact .array (ihelements (by omega) hread)
      · exact .object (forall_mem_setAll (ihmembers (by omega) hread) nofun)
      · exact hasFitNumbers_readScalar hread
    refine ⟨hvalue, ?_, ?_⟩
    · intro text taken hlt h
      obtain ⟨first, hfirst, heq | ⟨rest, more, hrest, hmore, heq⟩⟩ := readElements_cases h <;>
        rw [heq]
      · simpa using hvalue hlt hfirst
      · exact List.forall_mem_cons.2 ⟨hvalue hlt hfirst, ihelements (by omega) hmore⟩
    · intro text taken hlt h
      obtain ⟨key, inner, value, hinner, hread, heq | ⟨rest, more, hrest, hmore, heq⟩⟩ :=
        readMembers_cases h <;> rw [heq]
      · simpa using ihvalue (by omega) hread
      · exact List.forall_mem_cons.2 ⟨ihvalue (by omega) hread, ihmembers (by omega) hmore⟩

/-- The numbers in a value that is read from a text are fit. -/
theorem hasFitNumbers_read {text : Text} {value : Json} (h : read text = .ok value) :
    value.HasFitNumbers := by
  unfold read readAll at h
  split at h
  · cases h
  · cases hread : readValue (skip text) with
    | error stop =>
      rw [hread] at h
      cases h
    | ok taken =>
      rw [hread] at h
      simp only [bind, Except.bind] at h
      split at h
      · cases h
        exact (hasFitNumbers_of_length_lt _).1 (Nat.lt_succ_self _) hread
      · cases h

end Json

end TsQuery
