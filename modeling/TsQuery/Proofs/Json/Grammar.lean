import Mathlib
import TsQuery.Json.Basic
import TsQuery.Proofs.Json.Number

/-!
# The grammar of JSON

The texts that RFC 8259 allows are derived part by part (`Json.Standard`, `Json.IsStandard`):
blanks, the three words, numbers, strings, and arrays and objects of them.  The standard has no word
for an infinity or for what is not a number: outside its strings an allowed text has neither of the
capitals that these words begin with (`Json.IsStandard.outside`).
-/

namespace TsQuery

namespace Json

/-! ### Derivations -/

/-- A character of a string, as the standard has it: as it is, as a letter behind a backslash, or as
four hexadecimal digits behind a backslash and the letter `u`. -/
inductive IsStringChar : Text → Prop
  | plain {c : CodePoint} (hcontrol : 0x20 ≤ c.toNat) (hquote : c ≠ '"') (hbackslash : c ≠ '\\') :
    IsStringChar [c]
  | letter {c : CodePoint} (h : c ∈ Text.ofString "\"\\/bfnrt") : IsStringChar ['\\', c]
  | unit {digits : Text} (hlength : digits.length = 4)
    (hdigits : ∀ c ∈ digits, hexDigitValue? c ≠ none) : IsStringChar ('\\' :: 'u' :: digits)

/-- A string: characters between quotes. -/
inductive IsString : Text → Prop
  | chars {pieces : List Text} (h : ∀ piece ∈ pieces, IsStringChar piece) :
    IsString (.char '"' :: (pieces.flatten ++ [.char '"']))

/-- Whether a text is nothing but blanks. -/
def IsBlanks (text : Text) : Prop :=
  ∀ c ∈ text, isJsonBlank c = true

/-- A part of a text: a value, the elements between the brackets of an array or the members between
the braces of an object. -/
inductive Part
  | value
  | elements
  | members

/-- The parts that the standard allows. -/
inductive Standard : Part → Text → Prop
  | word {word : String} (h : word ∈ ["null", "true", "false"]) : Standard .value word
  | number (number : Number) : Standard .value (Text.ofChars number.chars)
  | string {text : Text} (h : IsString text) : Standard .value text
  | emptyArray {blanks : Text} (hblanks : IsBlanks blanks) :
    Standard .value (.char '[' :: (blanks ++ [.char ']']))
  | array {text : Text} (h : Standard .elements text) :
    Standard .value (.char '[' :: (text ++ [.char ']']))
  | emptyObject {blanks : Text} (hblanks : IsBlanks blanks) :
    Standard .value (.char '\x7b' :: (blanks ++ [.char '\x7d']))
  | object {text : Text} (h : Standard .members text) :
    Standard .value (.char '\x7b' :: (text ++ [.char '\x7d']))
  | lastElement {before value after : Text} (hbefore : IsBlanks before)
    (h : Standard .value value) (hafter : IsBlanks after) :
    Standard .elements (before ++ (value ++ after))
  | moreElements {first rest : Text} (hfirst : Standard .elements first)
    (hrest : Standard .elements rest) : Standard .elements (first ++ .char ',' :: rest)
  | lastMember {before key between beyond value after : Text} (hbefore : IsBlanks before)
    (hkey : IsString key) (hbetween : IsBlanks between) (hbeyond : IsBlanks beyond)
    (h : Standard .value value) (hafter : IsBlanks after) :
    Standard .members (before ++ (key ++ (between ++ .char ':' :: (beyond ++ (value ++ after)))))
  | moreMembers {first rest : Text} (hfirst : Standard .members first)
    (hrest : Standard .members rest) : Standard .members (first ++ .char ',' :: rest)

/-- The texts that the standard allows: a value with blanks around it. -/
inductive IsStandard : Text → Prop
  | text {before value after : Text} (hbefore : IsBlanks before) (h : Standard .value value)
    (hafter : IsBlanks after) : IsStandard (before ++ (value ++ after))

/-! ### Outside of strings -/

/-- Where a character of a text stands: outside of strings, in one, or behind the backslash of an
escape. -/
inductive Place
  | outside
  | inside
  | escaped

/-- What stands outside of the strings of a text, without their quotes. -/
def outside : Place → Text → Text
  | _, [] => []
  | .outside, c :: rest => if c = '"' then outside .inside rest else c :: outside .outside rest
  | .inside, c :: rest =>
    if c = '"' then outside .outside rest
    else if c = '\\' then outside .escaped rest
    else outside .inside rest
  | .escaped, _ :: rest => outside .inside rest

/-- Whether the strings of a text are closed. -/
def IsClosed (text : Text) : Prop :=
  ∀ rest, outside .outside (text ++ rest) = outside .outside text ++ outside .outside rest

theorem isClosed_nil : IsClosed [] :=
  fun _ => rfl

theorem IsClosed.append {text more : Text} (h : IsClosed text) (hmore : IsClosed more) :
    IsClosed (text ++ more) := by
  intro rest
  rw [List.append_assoc, h, hmore, h, List.append_assoc]

/-- Outside of strings a character stands for itself. -/
theorem outside_cons {c : CodePoint} (hc : c ≠ '"') (rest : Text) :
    outside .outside (c :: rest) = c :: outside .outside rest := by
  rw [outside, if_neg hc]

/-- A text without quotes has no strings. -/
theorem outside_of_notMem {text : Text} (h : .char '"' ∉ text) : outside .outside text = text := by
  induction text with
  | nil => rfl
  | cons c text ih =>
    rw [List.mem_cons, not_or] at h
    rw [outside_cons (Ne.symm h.1), ih h.2]

theorem isClosed_of_notMem {text : Text} (h : .char '"' ∉ text) : IsClosed text := by
  intro rest
  induction text with
  | nil => rfl
  | cons c text ih =>
    rw [List.mem_cons, not_or] at h
    rw [List.cons_append, outside_cons (Ne.symm h.1), outside_cons (Ne.symm h.1), ih h.2,
      List.cons_append]

/-- Characters of a string do not close it. -/
theorem IsStringChar.outside_append {piece : Text} (h : IsStringChar piece) (rest : Text) :
    outside .inside (piece ++ rest) = outside .inside rest := by
  cases h with
  | plain hcontrol hquote hbackslash =>
    rw [List.singleton_append, outside, if_neg hquote, if_neg hbackslash]
  | letter h => rfl
  | @unit digits hlength hdigits =>
    have hskip : ∀ digits : Text, (∀ c ∈ digits, hexDigitValue? c ≠ none) →
        outside .inside (digits ++ rest) = outside .inside rest := by
      intro digits
      induction digits with
      | nil => exact fun _ => rfl
      | cons c digits ih =>
        intro hdigits
        obtain ⟨hc, hdigits⟩ := List.forall_mem_cons.1 hdigits
        have hquote : c ≠ '"' := by
          rintro rfl
          exact hc rfl
        have hbackslash : c ≠ '\\' := by
          rintro rfl
          exact hc rfl
        rw [List.cons_append, outside, if_neg hquote, if_neg hbackslash, ih hdigits]
    exact hskip digits hdigits

/-- A string is closed, and nothing of it stands outside. -/
theorem IsString.outside_append {text : Text} (h : IsString text) (rest : Text) :
    outside .outside (text ++ rest) = outside .outside rest := by
  obtain ⟨h⟩ := h
  rename_i pieces
  have hpieces : ∀ pieces : List Text, (∀ piece ∈ pieces, IsStringChar piece) →
      outside .inside (pieces.flatten ++ .char '"' :: rest) = outside .outside rest := by
    intro pieces
    induction pieces with
    | nil => exact fun _ => rfl
    | cons piece pieces ih =>
      intro h
      obtain ⟨hpiece, hpieces⟩ := List.forall_mem_cons.1 h
      rw [List.flatten_cons, List.append_assoc, hpiece.outside_append, ih hpieces]
  have htext : .char '"' :: (pieces.flatten ++ [.char '"']) ++ rest =
      .char '"' :: (pieces.flatten ++ .char '"' :: rest) := by simp
  rw [htext]
  exact hpieces pieces h

theorem IsString.isClosed {text : Text} (h : IsString text) : IsClosed text := by
  intro rest
  have hnil := h.outside_append []
  rw [List.append_nil] at hnil
  rw [h.outside_append, hnil]
  rfl

theorem IsString.outside_eq_nil {text : Text} (h : IsString text) : outside .outside text = [] := by
  have hnil := h.outside_append []
  rwa [List.append_nil] at hnil

/-! ### No infinities -/

/-- The capitals that the words for the infinities and for what is not a number begin with. -/
def capitals : Text :=
  ['I', 'N']

/-- Whether the strings of a text are closed and none of the capitals stands outside of them. -/
structure IsPlain (text : Text) : Prop where
  isClosed : IsClosed text
  notMem : ∀ c ∈ outside .outside text, c ∉ capitals

namespace IsPlain

theorem append {text more : Text} (h : IsPlain text) (hmore : IsPlain more) :
    IsPlain (text ++ more) := by
  refine ⟨h.isClosed.append hmore.isClosed, ?_⟩
  rw [h.isClosed]
  exact List.forall_mem_append.2 ⟨h.notMem, hmore.notMem⟩

/-- A text without quotes and capitals. -/
theorem of_forall {text : Text} (h : ∀ c ∈ text, c ∉ Text.ofString "\"IN") : IsPlain text := by
  have hquote : .char '"' ∉ text := fun hmem => h _ hmem List.mem_cons_self
  refine ⟨isClosed_of_notMem hquote, ?_⟩
  rw [outside_of_notMem hquote]
  exact fun c hc hcapital => h c hc (List.mem_cons_of_mem _ hcapital)

theorem cons {c : CodePoint} (hc : c ∉ Text.ofString "\"IN") {text : Text} (h : IsPlain text) :
    IsPlain (c :: text) := by
  have hsingle : IsPlain [c] := of_forall (List.forall_mem_singleton.2 hc)
  exact hsingle.append h

theorem blanks {text : Text} (h : IsBlanks text) : IsPlain text := by
  refine of_forall fun c hc => ?_
  have hblank := h c hc
  simp only [isJsonBlank, Bool.or_eq_true, beq_iff_eq] at hblank
  rcases hblank with ((rfl | rfl) | rfl) | rfl <;> decide

theorem string {text : Text} (h : IsString text) : IsPlain text :=
  ⟨h.isClosed, by rw [h.outside_eq_nil]; exact nofun⟩

end IsPlain

/-- The characters of an exponent are its letter, signs and digits. -/
theorem Exponent.mem_chars {exponent : Exponent} {c : Char} (h : c ∈ exponent.chars) :
    c.isDigit = true ∨ c ∈ ['-', '+', '.', 'e', 'E'] := by
  simp only [Exponent.chars, List.mem_cons, List.mem_append, Option.mem_toList] at h
  rcases h with rfl | hsign | hdigit
  · rcases exponent.letter_eq with heq | heq <;> rw [heq] <;> decide
  · rcases exponent.sign_eq c hsign with rfl | rfl <;> decide
  · exact Or.inl (exponent.isDigit c hdigit)

/-- The characters of a number are digits, signs, the point and the letters of exponents. -/
theorem Number.mem_chars {number : Number} {c : Char} (h : c ∈ number.chars) :
    c.isDigit = true ∨ c ∈ ['-', '+', '.', 'e', 'E'] := by
  have hunsigned : ∀ c ∈ number.unsigned, c.isDigit = true ∨ c ∈ ['-', '+', '.', 'e', 'E'] := by
    intro c hc
    simp only [Number.unsigned, List.mem_append] at hc
    rcases hc with (hwhole | hfraction) | hexponent
    · exact Or.inl (number.isDigit_whole c hwhole)
    · unfold Number.fractionChars at hfraction
      split at hfraction
      · cases hfraction
      · rcases List.mem_cons.1 hfraction with rfl | hdigit
        · decide
        · exact Or.inl (number.isDigit_fraction c hdigit)
    · unfold Number.exponentChars at hexponent
      cases hsome : number.exponent? with
      | none =>
        rw [hsome] at hexponent
        cases hexponent
      | some exponent =>
        rw [hsome] at hexponent
        exact Exponent.mem_chars hexponent
  unfold Number.chars at h
  split at h
  · rcases List.mem_cons.1 h with rfl | hmem
    · decide
    · exact hunsigned c hmem
  · exact hunsigned c h

theorem Number.isPlain_chars (number : Number) : IsPlain (Text.ofChars number.chars) := by
  refine .of_forall fun c hc => ?_
  obtain ⟨d, hd, rfl⟩ := List.mem_map.1 hc
  rcases Number.mem_chars hd with hdigit | hmem
  · have hcapitals : Text.ofString "\"IN" = [.char '"', .char 'I', .char 'N'] := rfl
    rw [hcapitals]
    simp only [List.mem_cons, CodePoint.char.injEq, List.not_mem_nil, or_false]
    rintro (rfl | rfl | rfl) <;> exact absurd hdigit (by decide)
  · simp only [List.mem_cons, List.not_mem_nil, or_false] at hmem
    rcases hmem with rfl | rfl | rfl | rfl | rfl <;> decide

/-- A part that the standard allows has none of the capitals outside of its strings. -/
theorem Standard.isPlain {part : Part} {text : Text} (h : Standard part text) : IsPlain text := by
  induction h with
  | word h =>
    simp only [List.mem_cons, List.not_mem_nil, or_false] at h
    rcases h with rfl | rfl | rfl <;> exact .of_forall (by decide)
  | number number => exact number.isPlain_chars
  | string h => exact .string h
  | emptyArray hblanks =>
    exact .cons (by decide) ((IsPlain.blanks hblanks).append (.of_forall (by decide)))
  | array h ih => exact .cons (by decide) (ih.append (.of_forall (by decide)))
  | emptyObject hblanks =>
    exact .cons (by decide) ((IsPlain.blanks hblanks).append (.of_forall (by decide)))
  | object h ih => exact .cons (by decide) (ih.append (.of_forall (by decide)))
  | lastElement hbefore h hafter ih =>
    exact (IsPlain.blanks hbefore).append (ih.append (.blanks hafter))
  | moreElements hfirst hrest ihfirst ihrest => exact ihfirst.append (.cons (by decide) ihrest)
  | lastMember hbefore hkey hbetween hbeyond h hafter ih =>
    have hvalue := (IsPlain.blanks hbeyond).append (ih.append (.blanks hafter))
    have hcolon := (IsPlain.blanks hbetween).append (hvalue.cons (c := .char ':') (by decide))
    exact (IsPlain.blanks hbefore).append ((IsPlain.string hkey).append hcolon)
  | moreMembers hfirst hrest ihfirst ihrest => exact ihfirst.append (.cons (by decide) ihrest)

/-- A text that the standard allows has none of the capitals outside of its strings. -/
theorem IsStandard.isPlain {text : Text} (h : IsStandard text) : IsPlain text := by
  obtain ⟨hbefore, h, hafter⟩ := h
  exact (IsPlain.blanks hbefore).append (h.isPlain.append (.blanks hafter))

end Json

end TsQuery
