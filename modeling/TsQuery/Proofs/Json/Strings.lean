import Mathlib
import TsQuery.Json.Write
import TsQuery.Proofs.Json.Taken

/-!
# Strings in JSON

A written string reads back as its text with the halves of surrogate pairs put together
(`Json.readString_escaped`).  Two halves that stand next to each other in a text are written as two
escapes, and these are read as one character (`Text.paired`); so a text reads back as itself exactly
if it has no such two halves (`Text.paired_eq_self`).
-/

namespace TsQuery

/-! ### Halves put together -/

namespace Json

theorem isHighSurrogate_iff {unit : Nat} :
    isHighSurrogate unit = true ↔ 0xd800 ≤ unit ∧ unit ≤ 0xdbff := by
  simp only [isHighSurrogate, Bool.and_eq_true, decide_eq_true_eq]

theorem isLowSurrogate_iff {unit : Nat} :
    isLowSurrogate unit = true ↔ 0xdc00 ≤ unit ∧ unit ≤ 0xdfff := by
  simp only [isLowSurrogate, Bool.and_eq_true, decide_eq_true_eq]

end Json

open Json

namespace CodePoint

/-- The character whose surrogate pair two code points are, if they are one. -/
def pair? (first second : CodePoint) : Option CodePoint :=
  if isHighSurrogate first.toNat ∧ isLowSurrogate second.toNat then
    some (.ofNat (0x10000 + (first.toNat - 0xd800) * 0x400 + (second.toNat - 0xdc00)))
  else none

theorem pair?_eq_some {first second c : CodePoint} :
    pair? first second = some c ↔ isHighSurrogate first.toNat = true ∧
      isLowSurrogate second.toNat = true ∧
      .ofNat (0x10000 + (first.toNat - 0xd800) * 0x400 + (second.toNat - 0xdc00)) = c := by
  unfold pair?
  split
  · next h => simp [h]
  · next h =>
    refine iff_of_false nofun ?_
    exact fun hall => h ⟨hall.1, hall.2.1⟩

end CodePoint

namespace Text

/-- A text with the halves of each surrogate pair put together. -/
def paired : Text → Text
  | [] => []
  | [c] => [c]
  | c :: d :: rest =>
    match CodePoint.pair? c d with
    | some e => e :: paired rest
    | none => c :: paired (d :: rest)

/-- Whether no two neighbours in a text are a surrogate pair. -/
def IsPaired (text : Text) : Prop :=
  text.IsChain fun c d => CodePoint.pair? c d = none

theorem length_paired_le (text : Text) : (paired text).length ≤ text.length := by
  induction text using paired.induct with
  | case1 => exact Nat.le_refl _
  | case2 => exact Nat.le_refl _
  | case3 c d rest e hpair ih =>
    simp only [paired, hpair, List.length_cons]
    omega
  | case4 c d rest hpair ih =>
    simp only [paired, hpair, List.length_cons] at ih ⊢
    omega

/-- A text is left as it is exactly if no two neighbours are a surrogate pair. -/
theorem paired_eq_self {text : Text} : paired text = text ↔ text.IsPaired := by
  induction text using paired.induct with
  | case1 => exact iff_of_true rfl List.isChain_nil
  | case2 c => exact iff_of_true rfl (List.isChain_singleton c)
  | case3 c d rest e hpair ih =>
    refine iff_of_false ?_ ?_
    · intro heq
      have hlength := congrArg List.length heq
      have := length_paired_le rest
      simp only [paired, hpair, List.length_cons] at hlength
      omega
    · intro h
      rw [IsPaired, List.isChain_cons_cons, hpair] at h
      exact absurd h.1 nofun
  | case4 c d rest hpair ih =>
    have hpaired : paired (c :: d :: rest) = c :: paired (d :: rest) := by
      rw [paired, hpair]
    rw [hpaired, List.cons_inj_right, ih, IsPaired, IsPaired, List.isChain_cons_cons]
    exact (and_iff_right hpair).symm

/-- Characters are no halves of a surrogate pair. -/
theorem isPaired_ofChars (chars : List Char) : (ofChars chars).IsPaired := by
  induction chars with
  | nil => exact List.isChain_nil
  | cons c chars ih =>
    cases chars with
    | nil => exact List.isChain_singleton _
    | cons d chars =>
      have hchar : CodePoint.pair? (.char c) (.char d) = none := by
        refine if_neg ?_
        have := CodePoint.toNat_char c
        rw [isHighSurrogate_iff]
        omega
      exact List.isChain_cons_cons.2 ⟨hchar, ih⟩

end Text

/-! ### Hexadecimal digits -/

theorem hexDigitValue?_digitChar {n : Nat} (h : n < 16) :
    hexDigitValue? (.char (Nat.digitChar n)) = some n := by
  interval_cases n <;> rfl

/-- The last four hexadecimal digits of a number, one by one. -/
theorem hexText_four (n : Nat) :
    hexText 4 n = [.char (Nat.digitChar (n / 4096 % 16)), .char (Nat.digitChar (n / 256 % 16)),
      .char (Nat.digitChar (n / 16 % 16)), .char (Nat.digitChar (n % 16))] := by
  simp [hexText, Nat.div_div_eq_div_mul]

/-- Four hexadecimal digits denote the number that they were made of. -/
theorem hexValue?_hexText {n : Nat} (h : n < 0x10000) : hexValue? (hexText 4 n) = some n := by
  have hmod : ∀ m : Nat, m % 16 < 16 := fun m => Nat.mod_lt m (by decide)
  rw [hexText_four]
  simp only [hexValue?, List.foldlM_cons, List.foldlM_nil, hexDigitValue?_digitChar (hmod _),
    Option.map_some, Option.bind_eq_bind, Option.bind_some, Option.pure_def, Option.some.injEq]
  omega

namespace Json

/-! ### Escapes -/

/-- The digits of an escape are read as the code unit. -/
theorem readUnit_hexText {unit : Nat} (h : unit < 0x10000) (c : CodePoint) (rest : Text) :
    Gives (readUnit ('u' :: (hexText 4 unit ++ c :: rest))) unit (c :: rest) := by
  have hvalue := hexValue?_hexText h
  rw [hexText_four] at hvalue ⊢
  refine ⟨by simp only [List.length_cons, List.length_append]; omega, ?_⟩
  simp only [List.cons_append, List.nil_append, readUnit, hvalue]

/-- The code unit of an escape is compared with the second halves of pairs. -/
theorem readLowSurrogate?_unitEscape {unit : Nat} (h : unit < 0x10000) (c : CodePoint)
    (rest : Text) :
    ∃ shorter, readLowSurrogate? (unitEscape unit ++ c :: rest) =
      .ok (if isLowSurrogate unit then some ⟨unit, c :: rest, shorter⟩ else none) := by
  obtain ⟨hshorter, hread⟩ := readUnit_hexText h c rest
  have hlength : 6 ≤ ('u' :: (hexText 4 unit ++ c :: rest) : Text).length := by
    rw [hexText_four]
    simp only [List.length_cons, List.length_append]
    omega
  refine ⟨Nat.lt_succ_of_lt hshorter, ?_⟩
  change readLowSurrogate? ('\\' :: 'u' :: (hexText 4 unit ++ c :: rest)) = _
  rw [readLowSurrogate?, List.head?_cons, if_pos ⟨rfl, hlength⟩, hread]
  by_cases hlow : isLowSurrogate unit = true
  · simp only [Except.map, hlow, if_true]
    rfl
  · simp only [Except.map, hlow]
    rfl

section Escape

variable {unit : Nat} (h : unit < 0x10000) (opening rest : Text) (c : CodePoint)

include h

/-- A code unit stands for itself if it is no first half of a pair. -/
theorem readEscape_unit (hhigh : isHighSurrogate unit = false) :
    Gives (readEscape opening ('u' :: (hexText 4 unit ++ c :: rest))) (.ofNat unit)
      (c :: rest) := by
  obtain ⟨hshorter, hread⟩ := readUnit_hexText h c rest
  refine ⟨hshorter, ?_⟩
  rw [readEscape, if_pos rfl, hread]
  simp only [Except.bind, bind, hhigh, Bool.false_eq_true, if_false]
  rfl

/-- A first half stands for itself if no second half follows. -/
theorem readEscape_alone (hhigh : isHighSurrogate unit = true)
    (hlow : readLowSurrogate? (c :: rest) = .ok none) :
    Gives (readEscape opening ('u' :: (hexText 4 unit ++ c :: rest))) (.ofNat unit)
      (c :: rest) := by
  obtain ⟨hshorter, hread⟩ := readUnit_hexText h c rest
  refine ⟨hshorter, ?_⟩
  rw [readEscape, if_pos rfl, hread]
  simp only [Except.bind, bind, hhigh, if_true, hlow]
  rfl

/-- A first half and the second half that follows stand for a character. -/
theorem readEscape_followed (hhigh : isHighSurrogate unit = true)
    {second : Taken Nat (c :: rest)} (hlow : readLowSurrogate? (c :: rest) = .ok (some second)) :
    Gives (readEscape opening ('u' :: (hexText 4 unit ++ c :: rest)))
      (.ofNat (0x10000 + (unit - 0xd800) * 0x400 + (second.value - 0xdc00))) second.rest := by
  obtain ⟨hshorter, hread⟩ := readUnit_hexText h c rest
  refine ⟨Nat.lt_trans second.shorter hshorter, ?_⟩
  rw [readEscape, if_pos rfl, hread]
  simp only [Except.bind, bind, hhigh, if_true, hlow]
  rfl

/-- Two escapes that name the halves of a pair stand for a character. -/
theorem readEscape_pair (hhigh : isHighSurrogate unit = true) {low : Nat} (hlt : low < 0x10000)
    (hlow : isLowSurrogate low = true) :
    Gives (readEscape opening ('u' :: (hexText 4 unit ++ (unitEscape low ++ c :: rest))))
      (.ofNat (0x10000 + (unit - 0xd800) * 0x400 + (low - 0xdc00))) (c :: rest) := by
  obtain ⟨hshorter, hread⟩ := readLowSurrogate?_unitEscape hlt c rest
  rw [if_pos hlow] at hread
  have hpair := readEscape_followed h opening (.char 'u' :: (hexText 4 low ++ c :: rest))
    (.char '\\') hhigh hread
  exact hpair

end Escape

/-! ### Characters -/

/-- The forms of a character in a string: as it is, as a letter behind a backslash, or as one or two
escapes of code units. -/
inductive EscapedForm (c : CodePoint) : Text → Prop
  | plain (hquote : c ≠ '"') (hbackslash : c ≠ '\\') (hcontrol : 0x1f < c.toNat) :
    EscapedForm c [c]
  | letter {letter : CodePoint} (hu : letter ≠ 'u') (hescape : shortEscape? letter = some c) :
    EscapedForm c ['\\', letter]
  | unit (hlt : c.toNat < 0x10000) : EscapedForm c (unitEscape c.toNat)
  | pair (hle : 0x10000 ≤ c.toNat) :
    EscapedForm c (unitEscape (0xd800 + (c.toNat - 0x10000) / 0x400) ++
      unitEscape (0xdc00 + (c.toNat - 0x10000) % 0x400))

/-- A character is written in one of its forms. -/
theorem escapedForm_escapedChar (c : CodePoint) : EscapedForm c (escapedChar c) := by
  unfold escapedChar
  split_ifs with hquote hn hr ht hf hb hplain hunit
  · rcases hquote with rfl | rfl
    · exact .letter (by decide) rfl
    · exact .letter (by decide) rfl
  · exact .letter (by decide) (hn ▸ rfl)
  · exact .letter (by decide) (hr ▸ rfl)
  · exact .letter (by decide) (ht ▸ rfl)
  · exact .letter (by decide) (hf ▸ rfl)
  · exact .letter (by decide) (hb ▸ rfl)
  · exact .plain (fun h => hquote (Or.inl h)) (fun h => hquote (Or.inr h)) hplain.1
  · exact .unit hunit
  · exact .pair (not_lt.1 hunit)

/-- A code point in the range of the halves is written as one escape. -/
theorem escapedChar_of_surrogate {c : CodePoint} (hle : 0xd800 ≤ c.toNat)
    (hge : c.toNat ≤ 0xdfff) : escapedChar c = unitEscape c.toNat := by
  have hne : ∀ {d : CodePoint}, d.toNat < 0xd800 → c ≠ d := by
    rintro d hd rfl
    omega
  rw [escapedChar, if_neg (not_or.2 ⟨hne (by decide), hne (by decide)⟩), if_neg (hne (by decide)),
    if_neg (hne (by decide)), if_neg (hne (by decide)), if_neg (hne (by decide)),
    if_neg (hne (by decide)), if_neg (by omega), if_pos (by omega)]

/-! ### Strings -/

section ReadString

variable {opening rest after more : Text}

/-- A string ends at its closing quote. -/
theorem readString_quote : Gives (readString opening ('"' :: rest)) [] rest := by
  refine ⟨Nat.lt_succ_self _, ?_⟩
  rw [readString, if_pos rfl]

/-- A character that needs no escape stands for itself. -/
theorem readString_plain {c : CodePoint} (hquote : c ≠ '"') (hbackslash : c ≠ '\\')
    (hcontrol : 0x1f < c.toNat) (h : Gives (readString opening rest) more after) :
    Gives (readString opening (c :: rest)) (c :: more) after := by
  rw [readString, if_neg hquote, if_neg hbackslash, if_neg (not_le.2 hcontrol)]
  exact h.map_after (c :: ·) (Nat.le_succ _)

/-- An escape stands for what it is read as. -/
theorem readString_escape {inner : Text} {c : CodePoint}
    (hescape : Gives (readEscape opening inner) c rest)
    (h : Gives (readString opening rest) more after) :
    Gives (readString opening ('\\' :: inner)) (c :: more) after := by
  obtain ⟨hshorter, hread⟩ := hescape
  have hle : rest.length ≤ (.char '\\' :: inner : Text).length :=
    Nat.le_succ_of_le (Nat.le_of_lt hshorter)
  rw [readString, if_neg (by decide), if_pos rfl, hread]
  exact h.map_after (c :: ·) hle

/-- A character in any of its forms stands for itself, unless it is the first half of a pair and the
second half follows. -/
theorem readString_form {c d : CodePoint} {form : Text} (hform : EscapedForm c form)
    (hlow : isHighSurrogate c.toNat = true → readLowSurrogate? (d :: rest) = .ok none)
    (h : Gives (readString opening (d :: rest)) more after) :
    Gives (readString opening (form ++ d :: rest)) (c :: more) after := by
  cases hform with
  | plain hquote hbackslash hcontrol => exact readString_plain hquote hbackslash hcontrol h
  | @letter letter hu hescape =>
    refine readString_escape ⟨Nat.lt_succ_self _, ?_⟩ h
    change readEscape opening (letter :: d :: rest) = _
    rw [readEscape, if_neg hu, hescape]
    rfl
  | unit hlt =>
    refine readString_escape ?_ h
    rw [← CodePoint.ofNat_toNat c, CodePoint.toNat_ofNat c.toNat_lt]
    by_cases hhigh : isHighSurrogate c.toNat = true
    · exact readEscape_alone hlt opening rest d hhigh (hlow hhigh)
    · exact readEscape_unit hlt opening rest d (Bool.eq_false_iff.2 hhigh)
  | pair hle =>
    have hlt := c.toNat_lt
    set offset := c.toNat - 0x10000 with hoffset
    have hdiv : offset / 0x400 < 0x400 := by omega
    have hmod : offset % 0x400 < 0x400 := Nat.mod_lt _ (by decide)
    have hhigh : isHighSurrogate (0xd800 + offset / 0x400) = true :=
      isHighSurrogate_iff.2 (by omega)
    have hsecond : isLowSurrogate (0xdc00 + offset % 0x400) = true :=
      isLowSurrogate_iff.2 (by omega)
    have hvalue : 0x10000 + (0xd800 + offset / 0x400 - 0xd800) * 0x400 +
        (0xdc00 + offset % 0x400 - 0xdc00) = c.toNat := by omega
    have hunit : 0xd800 + offset / 0x400 < 0x10000 := by omega
    have hescape := readEscape_pair hunit opening rest d hhigh (by omega) hsecond
    rw [hvalue, CodePoint.ofNat_toNat] at hescape
    rw [List.append_assoc]
    exact readString_escape hescape h

end ReadString

/-- The closing quote and what follows it, or what a written text begins with. -/
theorem exists_escaped_eq_cons (text rest : Text) :
    ∃ c following, text.flatMap escapedChar ++ .char '"' :: rest = c :: following := by
  have hne : text.flatMap escapedChar ++ .char '"' :: rest ≠ [] :=
    List.append_ne_nil_of_right_ne_nil _ (List.cons_ne_nil _ _)
  exact List.exists_cons_of_ne_nil hne

/-- No second half of a pair begins a written text whose first character is none. -/
theorem readLowSurrogate?_escaped {text : Text}
    (h : ∀ c ∈ text.head?, isLowSurrogate c.toNat = false) (rest : Text) :
    readLowSurrogate? (text.flatMap escapedChar ++ .char '"' :: rest) = .ok none := by
  cases text with
  | nil => rfl
  | cons c text =>
    obtain ⟨d, following, hfollowing⟩ := exists_escaped_eq_cons text rest
    rw [List.flatMap_cons, List.append_assoc, hfollowing]
    have hform := escapedForm_escapedChar c
    generalize escapedChar c = form at hform
    cases hform with
    | plain hquote hbackslash hcontrol =>
      rw [List.singleton_append, readLowSurrogate?]
      exact fun _ heq => hbackslash (List.cons.inj heq).1
    | @letter letter hu hescape =>
      have hhead : ¬((letter :: d :: following).head? = some (.char 'u') ∧
          6 ≤ (letter :: d :: following).length) := fun hboth => hu (Option.some.inj hboth.1)
      change readLowSurrogate? (.char '\\' :: letter :: d :: following) = _
      rw [readLowSurrogate?]
      exact if_neg hhead
    | unit hlt =>
      obtain ⟨hshorter, hread⟩ := readLowSurrogate?_unitEscape hlt d following
      rw [hread, if_neg (by rw [h c rfl]; decide)]
    | pair hle =>
      have hlt := c.toNat_lt
      have hlow : ¬isLowSurrogate (0xd800 + (c.toNat - 0x10000) / 0x400) = true := by
        rw [isLowSurrogate_iff]
        omega
      have hunit : 0xd800 + (c.toNat - 0x10000) / 0x400 < 0x10000 := by omega
      obtain ⟨hshorter, hread⟩ := readLowSurrogate?_unitEscape hunit '\\'
        ('u' :: (hexText 4 (0xdc00 + (c.toNat - 0x10000) % 0x400) ++ d :: following))
      rw [if_neg hlow] at hread
      rw [List.append_assoc]
      exact hread

/-- A written string reads back as its text with the halves of pairs put together. -/
theorem readString_escaped (opening text rest : Text) :
    Gives (readString opening (text.flatMap escapedChar ++ .char '"' :: rest)) text.paired
      rest := by
  induction text using Text.paired.induct with
  | case1 => exact readString_quote
  | case2 c =>
    rw [List.flatMap_cons, List.append_assoc]
    exact readString_form (escapedForm_escapedChar c) (fun _ => rfl) readString_quote
  | case3 c d text e hpair ih =>
    obtain ⟨hhigh, hlow, rfl⟩ := CodePoint.pair?_eq_some.1 hpair
    obtain ⟨f, following, hfollowing⟩ := exists_escaped_eq_cons text rest
    obtain ⟨hc, hc'⟩ := isHighSurrogate_iff.1 hhigh
    obtain ⟨hd, hd'⟩ := isLowSurrogate_iff.1 hlow
    rw [Text.paired, hpair]
    rw [hfollowing] at ih
    rw [List.flatMap_cons, List.flatMap_cons, List.append_assoc, List.append_assoc, hfollowing,
      escapedChar_of_surrogate hc (by omega), escapedChar_of_surrogate (by omega) hd']
    exact readString_escape
      (readEscape_pair (by omega) opening following f hhigh (by omega) hlow) ih
  | case4 c d text hpair ih =>
    obtain ⟨e, following, hfollowing⟩ := exists_escaped_eq_cons (d :: text) rest
    have hpaired : Text.paired (c :: d :: text) = c :: Text.paired (d :: text) := by
      rw [Text.paired, hpair]
    have hlow : isHighSurrogate c.toNat = true →
        readLowSurrogate? (e :: following) = .ok none := by
      intro hhigh
      rw [← hfollowing]
      refine readLowSurrogate?_escaped ?_ rest
      rintro _ ⟨⟩
      by_contra hlow
      rw [Bool.not_eq_false] at hlow
      rw [CodePoint.pair?, if_pos ⟨hhigh, hlow⟩] at hpair
      exact absurd hpair nofun
    rw [List.flatMap_cons, List.append_assoc, hpaired]
    rw [hfollowing] at ih ⊢
    exact readString_form (escapedForm_escapedChar c) hlow ih

end Json

end TsQuery
