import Mathlib
import TsQuery.Json.Write
import TsQuery.Proofs.Json.Strings
import TsQuery.Proofs.Json.WrittenNumber

/-!
# Reading what was written

A value reads back as it was written (`Json.read_write`), with the halves of surrogate pairs put
together in its strings and keys (`Json.paired`).  This holds for the values that can be written as
one value of JSON (`Json.IsFit`): their integers are not too long to be read, their floating-point
numbers are numbers of the format, and their objects have different keys.
-/

namespace TsQuery

namespace Json

/-! ### Values -/

mutual

/-- A value with the halves of surrogate pairs put together. -/
def paired : Json → Json
  | null => null
  | bool value => bool value
  | int value => int value
  | real value => real value
  | string value => string value.paired
  | array elements => array (pairedElements elements)
  | object members => object (pairedMembers members)

/-- Elements with the halves of surrogate pairs put together. -/
def pairedElements : List Json → List Json
  | [] => []
  | value :: rest => paired value :: pairedElements rest

/-- Members with the halves of surrogate pairs put together, in the keys too. -/
def pairedMembers : List (Text × Json) → List (Text × Json)
  | [] => []
  | (key, value) :: rest => (key.paired, paired value) :: pairedMembers rest

end

mutual

/-- The texts in a value, its keys among them. -/
def texts : Json → List Text
  | null => []
  | bool _ => []
  | int _ => []
  | real _ => []
  | string value => [value]
  | array elements => textsOfElements elements
  | object members => textsOfMembers members

/-- The texts in elements. -/
def textsOfElements : List Json → List Text
  | [] => []
  | value :: rest => texts value ++ textsOfElements rest

/-- The texts in members. -/
def textsOfMembers : List (Text × Json) → List Text
  | [] => []
  | (key, value) :: rest => key :: (texts value ++ textsOfMembers rest)

end

mutual

/-- A value is left as it is exactly if no text in it has two neighbours that are a
surrogate pair. -/
theorem paired_eq_self (value : Json) :
    value.paired = value ↔ ∀ text ∈ value.texts, text.IsPaired := by
  cases value with
  | null => exact iff_of_true rfl nofun
  | bool value => exact iff_of_true rfl nofun
  | int value => exact iff_of_true rfl nofun
  | real value => exact iff_of_true rfl nofun
  | string value =>
    rw [paired, texts, string.injEq, List.forall_mem_singleton, Text.paired_eq_self]
  | array elements => rw [paired, texts, array.injEq, pairedElements_eq_self]
  | object members => rw [paired, texts, object.injEq, pairedMembers_eq_self]

theorem pairedElements_eq_self (elements : List Json) :
    pairedElements elements = elements ↔ ∀ text ∈ textsOfElements elements, text.IsPaired := by
  cases elements with
  | nil => exact iff_of_true rfl nofun
  | cons value elements =>
    rw [pairedElements, textsOfElements, List.cons.injEq, List.forall_mem_append,
      paired_eq_self value, pairedElements_eq_self elements]

theorem pairedMembers_eq_self (members : List (Text × Json)) :
    pairedMembers members = members ↔ ∀ text ∈ textsOfMembers members, text.IsPaired := by
  cases members with
  | nil => exact iff_of_true rfl nofun
  | cons member members =>
    obtain ⟨key, value⟩ := member
    rw [pairedMembers, textsOfMembers, List.cons.injEq, Prod.mk.injEq, List.forall_mem_cons,
      List.forall_mem_append, Text.paired_eq_self, paired_eq_self value,
      pairedMembers_eq_self members, and_assoc]

end

/-- Whether a value can be written as one value of JSON. -/
inductive IsFit : Json → Prop
  | null : IsFit null
  | bool (value : Bool) : IsFit (bool value)
  | int {value : Int} (hlength : (Nat.toDigits 10 value.natAbs).length ≤ maxDigits) :
    IsFit (int value)
  | real {value : Binary64} (hproper : value.IsProper) : IsFit (real value)
  | string (value : Text) : IsFit (string value)
  | array {elements : List Json} (helements : ∀ value ∈ elements, IsFit value) :
    IsFit (array elements)
  | object {members : List (Text × Json)}
    (hkeys : (members.map fun member => member.1.paired).Nodup)
    (hvalues : ∀ member ∈ members, IsFit member.2) : IsFit (object members)

/-! ### The first character -/

/-- Whether a character can be the first of a written value: it is no blank, does not close an
array, and does not mark the order of bytes. -/
def BeginsValue (c : CodePoint) : Prop :=
  isJsonBlank c = false ∧ c ≠ ']' ∧ c ≠ '\ufeff'

instance (c : CodePoint) : Decidable (BeginsValue c) :=
  inferInstanceAs (Decidable (_ ∧ _ ∧ _))

theorem beginsValue_of_isDigit {c : Char} (h : c.isDigit = true) : BeginsValue (.char c) := by
  refine ⟨?_, ?_, ?_⟩
  · by_contra hblank
    rw [Bool.not_eq_false] at hblank
    simp only [isJsonBlank, Bool.or_eq_true, beq_iff_eq, CodePoint.char.injEq] at hblank
    rcases hblank with ((rfl | rfl) | rfl) | rfl <;> exact absurd h (by decide)
  · rintro ⟨⟩
    exact absurd h (by decide)
  · rintro ⟨⟩
    exact absurd h (by decide)

/-- A number begins with a digit or with a minus sign and a digit. -/
theorem Number.chars_cases (number : Number) :
    ∃ c chars, c.isDigit = true ∧
      (number.chars = c :: chars ∨ number.chars = '-' :: c :: chars) := by
  obtain ⟨c, chars, hunsigned, hc⟩ := number.unsigned_eq_cons
  refine ⟨c, chars, hc, ?_⟩
  unfold Number.chars
  split
  · exact Or.inr (congrArg _ hunsigned)
  · exact Or.inl hunsigned

theorem Number.exists_chars_eq_cons (number : Number) :
    ∃ c text, Text.ofChars number.chars = c :: text ∧ BeginsValue c := by
  obtain ⟨c, chars, hc, hchars | hchars⟩ := number.chars_cases
  · exact ⟨.char c, Text.ofChars chars, congrArg Text.ofChars hchars, beginsValue_of_isDigit hc⟩
  · exact ⟨.char '-', Text.ofChars (c :: chars), congrArg Text.ofChars hchars, by decide⟩

/-- Brackets stand around entries. -/
theorem exists_enclose_eq_cons (level : Nat) (opening closing : CodePoint) (entries : List Text) :
    ∃ text, enclose level opening closing entries = opening :: text := by
  unfold enclose
  split
  · exact ⟨_, rfl⟩
  · exact ⟨_, rfl⟩

/-- The first character of a written value. -/
theorem IsFit.exists_writeAt_eq_cons {value : Json} (h : value.IsFit) (level : Nat) :
    ∃ c text, writeAt level value = c :: text ∧ BeginsValue c := by
  cases h with
  | null => exact ⟨_, _, rfl, by decide⟩
  | bool value => cases value <;> exact ⟨_, _, rfl, by decide⟩
  | @int value hlength =>
    obtain ⟨number, hwrite, -, -⟩ := exists_number_int value
    rw [writeAt, hwrite]
    exact number.exists_chars_eq_cons
  | @real value hproper =>
    cases value with
    | finite negative significand exponent =>
      obtain ⟨number, hwrite, -⟩ := exists_number_real hproper
      rw [writeAt, writeReal, hwrite]
      exact number.exists_chars_eq_cons
    | infinite negative => cases negative <;> exact ⟨_, _, rfl, by decide⟩
    | notANumber => exact ⟨_, _, rfl, by decide⟩
  | string value => exact ⟨_, _, rfl, by decide⟩
  | @array elements helements =>
    obtain ⟨text, htext⟩ :=
      exists_enclose_eq_cons level '[' ']' (writeElements (level + 1) elements)
    exact ⟨_, text, htext, by decide⟩
  | @object members hkeys hvalues =>
    obtain ⟨text, htext⟩ :=
      exists_enclose_eq_cons level '\x7b' '\x7d' (writeMembers (level + 1) members)
    exact ⟨_, text, htext, by decide⟩

/-! ### Words and numbers -/

/-- Characters that begin no string, array or object begin a word or a number. -/
theorem readValue_eq_readScalar {c : CodePoint} (hstring : c ≠ '"') (harray : c ≠ '[')
    (hobject : c ≠ '\x7b') (rest : Text) : readValue (c :: rest) = readScalar (c :: rest) := by
  rw [readValue, if_neg hstring, if_neg harray, if_neg hobject]

/-- No word begins a string, an array or an object. -/
theorem exists_word_eq_cons {word : Text} {value : Json} (hword : (word, value) ∈ words) :
    ∃ c text, word = c :: text ∧ c ≠ '"' ∧ c ≠ '[' ∧ c ≠ '\x7b' := by
  simp only [words, List.mem_cons, List.not_mem_nil, or_false, Prod.mk.injEq] at hword
  rcases hword with ⟨rfl, -⟩ | ⟨rfl, -⟩ | ⟨rfl, -⟩ | ⟨rfl, -⟩ | ⟨rfl, -⟩ | ⟨rfl, -⟩ <;>
    exact ⟨_, _, rfl, by decide, by decide, by decide⟩

/-- No word begins with another. -/
theorem find?_words {word : Text} {value : Json} (hword : (word, value) ∈ words) (rest : Text) :
    words.find? (fun other => other.1.isPrefixOf (word ++ rest)) = some (word, value) := by
  simp only [words, List.mem_cons, List.not_mem_nil, or_false, Prod.mk.injEq] at hword
  rcases hword with ⟨rfl, rfl⟩ | ⟨rfl, rfl⟩ | ⟨rfl, rfl⟩ | ⟨rfl, rfl⟩ | ⟨rfl, rfl⟩ | ⟨rfl, rfl⟩ <;>
    rfl

/-- A word is read as its value. -/
theorem readValue_word {word : Text} {value : Json} (hword : (word, value) ∈ words) (rest : Text) :
    Gives (readValue (word ++ rest)) value rest := by
  have hfind := find?_words hword rest
  obtain ⟨c, text, rfl, hstring, harray, hobject⟩ := exists_word_eq_cons hword
  have hlt : rest.length < (c :: text ++ rest).length := by
    rw [List.length_append, List.length_cons]
    omega
  refine ⟨hlt, ?_⟩
  have hscalar : readValue (c :: text ++ rest) = readScalar (c :: text ++ rest) :=
    readValue_eq_readScalar hstring harray hobject _
  rw [hscalar, readScalar, hfind]
  simp only [List.drop_left]
  rw [dif_pos hlt]

/-- A number is read as what it denotes. -/
theorem readValue_number {number : Number}
    (hlength : number.IsInteger → number.whole.length ≤ maxDigits) {rest : Text}
    (hrest : EndsNumber rest) :
    Gives (readValue (Text.ofChars number.chars ++ rest)) number.value rest := by
  have hread := readNumber_chars number hlength hrest
  obtain ⟨c, chars, hc, hchars⟩ := number.chars_cases
  have hne : ∀ {d : Char}, d.isDigit = false → c ≠ d := by
    rintro d hd rfl
    exact absurd hc (by rw [hd]; decide)
  -- The only word that begins with a minus sign has no digit behind it.
  have hfind : words.find? (fun word => word.1.isPrefixOf (Text.ofChars number.chars ++ rest)) =
      none := by
    rw [List.find?_eq_none]
    intro word hword
    simp only [words, List.mem_cons, List.not_mem_nil, or_false] at hword
    rcases hchars with hchars | hchars <;> rw [hchars] <;>
      rcases hword with rfl | rfl | rfl | rfl | rfl | rfl <;>
        simp [Text.ofString, Text.ofChars, Ne.symm (hne (d := 'n') rfl),
          Ne.symm (hne (d := 't') rfl), Ne.symm (hne (d := 'f') rfl),
          Ne.symm (hne (d := 'N') rfl), Ne.symm (hne (d := 'I') rfl), Ne.symm (hne (d := '-') rfl)]
  have hvalue : readValue (Text.ofChars number.chars ++ rest) =
      readScalar (Text.ofChars number.chars ++ rest) := by
    rcases hchars with hchars | hchars <;> rw [hchars]
    · exact readValue_eq_readScalar (by simpa using hne rfl) (by simpa using hne rfl)
        (by simpa using hne rfl) _
    · exact readValue_eq_readScalar (by decide) (by decide) (by decide) _
  rw [hvalue, readScalar, hfind]
  exact hread

/-! ### Elements -/

section

variable {text following after : Text} {value : Json}

/-- The last element of an array is followed by its closing bracket. -/
theorem readElements_last (hvalue : Gives (readValue text) value following)
    (hskip : skip following = .char ']' :: after) :
    Gives (readElements text) [value] after := by
  obtain ⟨hshorter, hread⟩ := hvalue
  have hle := length_skip_le following
  have hlt : after.length < text.length := by
    rw [hskip, List.length_cons] at hle
    omega
  refine ⟨hlt, ?_⟩
  rw [readElements, hread]
  dsimp only
  split
  · next heq => rw [hskip] at heq; cases heq
  · next heq =>
    rw [hskip] at heq
    cases heq
    rfl

/-- An element before others is followed by a comma. -/
theorem readElements_more {values : List Json} {rest : Text}
    (hvalue : Gives (readValue text) value following)
    (hskip : skip following = .char ',' :: after)
    (hmore : Gives (readElements (skip after)) values rest) :
    Gives (readElements text) (value :: values) rest := by
  obtain ⟨hshorter, hread⟩ := hvalue
  have hlefollowing := length_skip_le following
  have hleafter := length_skip_le after
  have hle : (skip after).length ≤ text.length := by
    rw [hskip, List.length_cons] at hlefollowing
    omega
  rw [readElements, hread]
  dsimp only
  split
  · next heq => rw [hskip] at heq; cases heq
  · next heq =>
    rw [hskip] at heq
    cases heq
    exact hmore.map_after (value :: ·) hle

/-- The last member of an object is followed by its closing brace. -/
theorem readMembers_last {body key afterKey colon : Text}
    (hkey : Gives (readString (.char '"' :: body) body) key afterKey)
    (hcolon : skip afterKey = .char ':' :: colon)
    (hvalue : Gives (readValue (skip colon)) value following)
    (hskip : skip following = .char '\x7d' :: after) :
    Gives (readMembers (.char '"' :: body)) [(key, value)] after := by
  obtain ⟨hkeyshorter, hreadkey⟩ := hkey
  obtain ⟨hshorter, hread⟩ := hvalue
  have hlefollowing := length_skip_le following
  have hlekey := length_skip_le afterKey
  have hlecolon := length_skip_le colon
  have hlt : after.length < (.char '"' :: body : Text).length := by
    rw [hskip, List.length_cons] at hlefollowing
    rw [hcolon, List.length_cons] at hlekey
    rw [List.length_cons]
    omega
  refine ⟨hlt, ?_⟩
  rw [readMembers, if_pos rfl, hreadkey]
  dsimp only
  split
  · next heq => rw [hcolon] at heq; cases heq
  · next heq =>
    rw [hcolon] at heq
    cases heq
    rw [if_pos rfl, hread]
    dsimp only
    split
    · next heq => rw [hskip] at heq; cases heq
    · next heq =>
      rw [hskip] at heq
      cases heq
      rfl

/-- A member before others is followed by a comma. -/
theorem readMembers_more {body key afterKey colon rest : Text} {members : Members}
    (hkey : Gives (readString (.char '"' :: body) body) key afterKey)
    (hcolon : skip afterKey = .char ':' :: colon)
    (hvalue : Gives (readValue (skip colon)) value following)
    (hskip : skip following = .char ',' :: after)
    (hmore : Gives (readMembers (skip after)) members rest) :
    Gives (readMembers (.char '"' :: body)) ((key, value) :: members) rest := by
  obtain ⟨hkeyshorter, hreadkey⟩ := hkey
  obtain ⟨hshorter, hread⟩ := hvalue
  have hlefollowing := length_skip_le following
  have hlekey := length_skip_le afterKey
  have hlecolon := length_skip_le colon
  have hleafter := length_skip_le after
  have hle : (skip after).length ≤ (.char '"' :: body : Text).length := by
    rw [hskip, List.length_cons] at hlefollowing
    rw [hcolon, List.length_cons] at hlekey
    rw [List.length_cons]
    omega
  rw [readMembers, if_pos rfl, hreadkey]
  dsimp only
  split
  · next heq => rw [hcolon] at heq; cases heq
  · next heq =>
    rw [hcolon] at heq
    cases heq
    rw [if_pos rfl, hread]
    dsimp only
    split
    · next heq => rw [hskip] at heq; cases heq
    · next heq =>
      rw [hskip] at heq
      cases heq
      exact hmore.map_after ((key, value) :: ·) hle

end

/-! ### Lines -/

theorem endsValue_lineStart (level : Nat) (rest : Text) : EndsValue (lineStart level ++ rest) :=
  endsValue_lineFeed _

/-- The beginning of a line is skipped in front of what is no blank. -/
theorem skip_lineStart (level : Nat) {c : CodePoint} (hc : isJsonBlank c = false) (rest : Text) :
    skip (lineStart level ++ c :: rest) = c :: rest := by
  have hblank : ∀ d ∈ lineStart level, isJsonBlank d = true := by
    intro d hd
    rcases List.mem_cons.1 hd with rfl | hd
    · rfl
    · rw [List.eq_of_mem_replicate hd]
      rfl
  rw [skip_append hblank, skip_cons hc]

/-! ### Entries -/

section

variable (separator first : Text)

theorem joined_singleton : Text.joined separator [first] = first := by
  simp [Text.joined, List.intercalate]

/-- Texts one after another, the first taken apart. -/
theorem joined_cons_cons (second : Text) (texts : List Text) :
    Text.joined separator (first :: second :: texts) =
      first ++ (separator ++ Text.joined separator (second :: texts)) := by
  simp [Text.joined, List.intercalate]

theorem exists_joined_cons (texts : List Text) :
    ∃ more, Text.joined separator (first :: texts) = first ++ more := by
  cases texts with
  | nil => exact ⟨[], by rw [joined_singleton, List.append_nil]⟩
  | cons second texts => exact ⟨_, joined_cons_cons separator first second texts⟩

end

/-- Entries whose first begins with no blank are reached from the beginning of their line. -/
theorem skip_lineStart_joined (level : Nat) {c : CodePoint} (hc : isJsonBlank c = false)
    (first : Text) (texts : List Text) (separator rest : Text) :
    skip (lineStart level ++ (Text.joined separator ((c :: first) :: texts) ++ rest)) =
      Text.joined separator ((c :: first) :: texts) ++ rest := by
  obtain ⟨more, hmore⟩ := exists_joined_cons separator (c :: first) texts
  rw [hmore, List.cons_append, List.cons_append, skip_lineStart level hc]

/-- Whether a value reads back wherever it stands. -/
def ReadsBack (value : Json) : Prop :=
  ∀ (level : Nat) {rest : Text}, EndsValue rest →
    Gives (readValue (writeAt level value ++ rest)) value.paired rest

/-- Elements read back, one to a line. -/
theorem readElements_written {elements : List Json} (hne : elements ≠ [])
    (hfit : ∀ value ∈ elements, value.IsFit) (hread : ∀ value ∈ elements, value.ReadsBack)
    (level outer : Nat) (rest : Text) :
    Gives (readElements (Text.joined (',' :: lineStart level) (writeElements level elements) ++
      (lineStart outer ++ .char ']' :: rest))) (pairedElements elements) rest := by
  induction elements with
  | nil => exact absurd rfl hne
  | cons value elements ih =>
    obtain ⟨hvalue, hvalues⟩ := List.forall_mem_cons.1 hread
    obtain ⟨-, hfits⟩ := List.forall_mem_cons.1 hfit
    cases elements with
    | nil =>
      rw [writeElements, writeElements, joined_singleton]
      exact readElements_last (hvalue level (endsValue_lineStart outer (.char ']' :: rest)))
        (skip_lineStart outer (by decide) rest)
    | cons next elements =>
      have hmore := ih (List.cons_ne_nil _ _) hfits hvalues
      obtain ⟨c, text, hcons, hc, -, -⟩ :=
        (hfits next List.mem_cons_self).exists_writeAt_eq_cons level
      rw [writeElements, hcons] at hmore
      rw [writeElements, writeElements, hcons, joined_cons_cons, List.append_assoc,
        List.cons_append, List.cons_append, List.append_assoc]
      refine readElements_more (hvalue level (endsValue_comma _)) (skip_cons (by decide) _) ?_
      rw [skip_lineStart_joined level hc]
      exact hmore

/-- The text of a member at a level. -/
def memberText (level : Nat) (key : Text) (value : Json) : Text :=
  writeString key ++ [.char ':', .char ' '] ++ writeAt level value

theorem writeMembers_cons (level : Nat) (key : Text) (value : Json) (members : Members) :
    writeMembers level ((key, value) :: members) =
      memberText level key value :: writeMembers level members :=
  rfl

/-- A member is its key between quotes, a colon, a blank and its value. -/
theorem memberText_append (level : Nat) (key : Text) (value : Json) (following : Text) :
    memberText level key value ++ following = .char '"' :: (key.flatMap escapedChar ++
      .char '"' :: .char ':' :: .char ' ' :: (writeAt level value ++ following)) := by
  simp [memberText, writeString, stringQuote]

section

variable {value : Json} (hfit : value.IsFit) (hread : value.ReadsBack)

include hfit in
/-- The blank behind the colon of a member is skipped. -/
theorem skip_writeAt (level : Nat) (following : Text) :
    skip (.char ' ' :: (writeAt level value ++ following)) = writeAt level value ++ following := by
  obtain ⟨c, text, hcons, hc, -, -⟩ := hfit.exists_writeAt_eq_cons level
  rw [hcons]
  exact skip_cons hc _

include hfit hread

/-- The last member of an object reads back. -/
theorem readMembers_memberText_last (level outer : Nat) (key rest : Text) :
    Gives (readMembers (memberText level key value ++ (lineStart outer ++ .char '\x7d' :: rest)))
      [(key.paired, value.paired)] rest := by
  rw [memberText_append]
  refine readMembers_last (readString_escaped _ key _) (skip_cons (by decide) _) ?_
    (skip_lineStart outer (by decide) rest)
  rw [skip_writeAt hfit]
  exact hread level (endsValue_lineStart outer (.char '\x7d' :: rest))

/-- A member before others reads back. -/
theorem readMembers_memberText_more (level : Nat) (key : Text) {members : Members}
    {after rest : Text} (hmore : Gives (readMembers (skip after)) members rest) :
    Gives (readMembers (memberText level key value ++ .char ',' :: after))
      ((key.paired, value.paired) :: members) rest := by
  have hvalue := hread level (endsValue_comma after)
  rw [← skip_writeAt hfit] at hvalue
  rw [memberText_append]
  exact readMembers_more (readString_escaped _ key _) (skip_cons (by decide) _) hvalue
    (skip_cons (by decide) after) hmore

end

/-- Members read back, one to a line. -/
theorem readMembers_written {members : Members} (hne : members ≠ [])
    (hfit : ∀ member ∈ members, member.2.IsFit)
    (hread : ∀ member ∈ members, member.2.ReadsBack) (level outer : Nat) (rest : Text) :
    Gives (readMembers (Text.joined (',' :: lineStart level) (writeMembers level members) ++
      (lineStart outer ++ .char '\x7d' :: rest))) (pairedMembers members) rest := by
  induction members with
  | nil => exact absurd rfl hne
  | cons member members ih =>
    obtain ⟨key, value⟩ := member
    obtain ⟨hvalue, hvalues⟩ := List.forall_mem_cons.1 hread
    obtain ⟨hfirst, hfits⟩ := List.forall_mem_cons.1 hfit
    cases members with
    | nil =>
      rw [writeMembers_cons, writeMembers, joined_singleton]
      exact readMembers_memberText_last hfirst hvalue level outer key rest
    | cons next members =>
      obtain ⟨other, next⟩ := next
      have hmore := ih (List.cons_ne_nil _ _) hfits hvalues
      rw [writeMembers_cons] at hmore
      rw [writeMembers_cons, writeMembers_cons, joined_cons_cons, List.append_assoc,
        List.cons_append, List.cons_append, List.append_assoc]
      refine readMembers_memberText_more hfirst hvalue level key ?_
      obtain ⟨text, htext⟩ : ∃ text, memberText level other next = .char '"' :: text := ⟨_, rfl⟩
      rw [htext] at hmore ⊢
      rw [skip_lineStart_joined level (by decide)]
      exact hmore

/-! ### Values between quotes and brackets -/

section

variable {body after more : Text} {c : CodePoint}

/-- A string is read between its quotes. -/
theorem readValue_string {text : Text}
    (h : Gives (readString (.char '"' :: body) body) text after) :
    Gives (readValue (.char '"' :: body)) (string text) after := by
  rw [readValue, if_pos rfl]
  exact h.map_after string (Nat.le_succ _)

/-- An array that is closed at once is empty. -/
theorem readValue_array_nil (hskip : skip body = .char ']' :: after) :
    Gives (readValue (.char '[' :: body)) (array []) after := by
  have hle := length_skip_le body
  have hlt : after.length < (.char '[' :: body : Text).length := by
    rw [hskip, List.length_cons] at hle
    rw [List.length_cons]
    omega
  have hhead : (skip body).head? = some (.char ']') := congrArg List.head? hskip
  have htail : (skip body).tail = after := congrArg List.tail hskip
  refine ⟨hlt, ?_⟩
  rw [readValue, if_neg (by decide), if_pos rfl]
  simp only [htail]
  exact if_pos hhead

/-- An array that is not closed at once has the elements that are read. -/
theorem readValue_array {elements : List Json} (hskip : skip body = c :: more) (hc : c ≠ ']')
    (h : Gives (readElements (c :: more)) elements after) :
    Gives (readValue (.char '[' :: body)) (array elements) after := by
  have hhead : ¬(skip body).head? = some (.char ']') := by
    rw [hskip]
    exact fun heq => hc (Option.some.inj heq)
  have hle : (skip body).length ≤ (.char '[' :: body : Text).length :=
    Nat.le_succ_of_le (length_skip_le body)
  rw [← hskip] at h
  rw [readValue, if_neg (by decide), if_pos rfl]
  refine (if_neg hhead).symm ▸ ?_
  exact h.map_after array hle

/-- An object that is closed at once is empty. -/
theorem readValue_object_nil (hskip : skip body = .char '\x7d' :: after) :
    Gives (readValue (.char '\x7b' :: body)) (object []) after := by
  have hle := length_skip_le body
  have hlt : after.length < (.char '\x7b' :: body : Text).length := by
    rw [hskip, List.length_cons] at hle
    rw [List.length_cons]
    omega
  have hhead : (skip body).head? = some (.char '\x7d') := congrArg List.head? hskip
  have htail : (skip body).tail = after := congrArg List.tail hskip
  refine ⟨hlt, ?_⟩
  rw [readValue, if_neg (by decide), if_neg (by decide), if_pos rfl]
  simp only [htail]
  exact if_pos hhead

/-- An object that is not closed at once has the members that are read, set one after another. -/
theorem readValue_object {members : Members} (hskip : skip body = c :: more) (hc : c ≠ '\x7d')
    (h : Gives (readMembers (c :: more)) members after) :
    Gives (readValue (.char '\x7b' :: body)) (object (Members.setAll [] members)) after := by
  have hhead : ¬(skip body).head? = some (.char '\x7d') := by
    rw [hskip]
    exact fun heq => hc (Option.some.inj heq)
  have hle : (skip body).length ≤ (.char '\x7b' :: body : Text).length :=
    Nat.le_succ_of_le (length_skip_le body)
  rw [← hskip] at h
  rw [readValue, if_neg (by decide), if_neg (by decide), if_pos rfl]
  refine (if_neg hhead).symm ▸ ?_
  exact h.map_after (fun members => object (Members.setAll [] members)) hle

end

/-! ### Values -/

/-- A member that is not present is set at the end. -/
theorem set_of_notMem {members : Members} {key : Text} (h : key ∉ members.map Prod.fst)
    (value : Json) : Members.set key value members = members ++ [(key, value)] := by
  induction members with
  | nil => rfl
  | cons first members ih =>
    rw [List.map_cons, List.mem_cons, not_or] at h
    rw [Members.set, if_neg (Ne.symm h.1), ih h.2, List.cons_append]

/-- Members with different keys are set one after another. -/
theorem setAll_append {members more : Members} (hkeys : ((members ++ more).map Prod.fst).Nodup) :
    Members.setAll members more = members ++ more := by
  induction more generalizing members with
  | nil => exact (List.append_nil members).symm
  | cons member more ih =>
    obtain ⟨key, value⟩ := member
    have hnotin : key ∉ members.map Prod.fst := by
      rw [List.map_append, List.map_cons, List.nodup_append] at hkeys
      exact fun hmem => hkeys.2.2 key hmem key List.mem_cons_self rfl
    rw [List.append_cons members (key, value) more] at hkeys ⊢
    rw [Members.setAll, List.foldl_cons]
    dsimp only
    rw [set_of_notMem hnotin]
    exact ih hkeys

theorem map_fst_pairedMembers (members : List (Text × Json)) :
    (pairedMembers members).map Prod.fst = members.map fun member => member.1.paired := by
  induction members with
  | nil => rfl
  | cons member members ih => rw [pairedMembers, List.map_cons, List.map_cons, ih]

/-- The words of null, the truth values and the numbers that are not finite read back. -/
theorem readsBack_word {word : String} {value : Json} (hword : ((word : Text), value) ∈ words)
    (hwrite : ∀ level, writeAt level value = word) (hpaired : value.paired = value) :
    value.ReadsBack := by
  intro level rest hrest
  rw [hwrite, hpaired]
  exact readValue_word hword rest

/-- A string reads back with the halves of surrogate pairs put together. -/
theorem readsBack_string (value : Text) : (string value).ReadsBack := by
  intro level rest hrest
  have htext : writeAt level (string value) ++ rest =
      .char '"' :: (value.flatMap escapedChar ++ .char '"' :: rest) := by
    rw [writeAt, writeString, List.append_assoc]
    rfl
  rw [htext]
  exact readValue_string (readString_escaped _ value rest)

/-- Entries between brackets, the first character after the bracket. -/
theorem enclose_append {first : Text} {texts : List Text} (level : Nat)
    (opening closing : CodePoint) (rest : Text) :
    enclose level opening closing (first :: texts) ++ rest = opening :: (lineStart (level + 1) ++
      (Text.joined (',' :: lineStart (level + 1)) (first :: texts) ++
        (lineStart level ++ closing :: rest))) := by
  simp [enclose]

/-- An array reads back if its elements do. -/
theorem readsBack_array {elements : List Json} (hfit : ∀ value ∈ elements, value.IsFit)
    (hread : ∀ value ∈ elements, value.ReadsBack) : (array elements).ReadsBack := by
  intro level rest hrest
  cases elements with
  | nil => exact readValue_array_nil (skip_cons (by decide) rest)
  | cons value elements =>
    have hwritten := readElements_written (List.cons_ne_nil _ _) hfit hread (level + 1) level rest
    obtain ⟨c, text, hcons, hc, hclose, -⟩ :=
      (hfit value List.mem_cons_self).exists_writeAt_eq_cons (level + 1)
    obtain ⟨more, hmore⟩ := exists_joined_cons (.char ',' :: lineStart (level + 1)) (c :: text)
      (writeElements (level + 1) elements)
    rw [writeElements, hcons, hmore, List.cons_append, List.cons_append] at hwritten
    rw [writeAt, writeElements, hcons, enclose_append, hmore, List.cons_append, List.cons_append,
      paired]
    exact readValue_array (skip_lineStart (level + 1) hc _) hclose hwritten

/-- An object reads back if its members do and its keys stay different. -/
theorem readsBack_object {members : Members}
    (hkeys : (members.map fun member => member.1.paired).Nodup)
    (hfit : ∀ member ∈ members, member.2.IsFit)
    (hread : ∀ member ∈ members, member.2.ReadsBack) : (object members).ReadsBack := by
  intro level rest hrest
  have hset : Members.setAll [] (pairedMembers members) = pairedMembers members := by
    rw [← map_fst_pairedMembers] at hkeys
    exact setAll_append hkeys
  cases members with
  | nil => exact readValue_object_nil (skip_cons (by decide) rest)
  | cons member members =>
    obtain ⟨key, value⟩ := member
    have hwritten := readMembers_written (List.cons_ne_nil _ _) hfit hread (level + 1) level rest
    obtain ⟨text, htext⟩ : ∃ text, memberText (level + 1) key value = .char '"' :: text :=
      ⟨_, rfl⟩
    obtain ⟨more, hmore⟩ := exists_joined_cons (.char ',' :: lineStart (level + 1))
      (.char '"' :: text) (writeMembers (level + 1) members)
    rw [writeMembers_cons, htext, hmore, List.cons_append, List.cons_append] at hwritten
    rw [writeAt, writeMembers_cons, htext, enclose_append, hmore, List.cons_append,
      List.cons_append, paired, ← hset]
    exact readValue_object (skip_lineStart (level + 1) (by decide) _) (by decide) hwritten

/-- A value reads back wherever it stands. -/
theorem IsFit.readsBack {value : Json} (h : value.IsFit) : value.ReadsBack := by
  induction h with
  | null => exact readsBack_word List.mem_cons_self (fun _ => rfl) rfl
  | bool value =>
    cases value with
    | false => exact readsBack_word (by simp [words]) (fun _ => rfl) rfl
    | true => exact readsBack_word (by simp [words]) (fun _ => rfl) rfl
  | @int value hlength =>
    intro level rest hrest
    obtain ⟨number, hwrite, hvalue, hwhole⟩ := exists_number_int value
    rw [writeAt, hwrite, paired, ← hvalue]
    exact readValue_number (fun _ => hwhole ▸ hlength) hrest.endsNumber
  | @real value hproper =>
    cases value with
    | finite negative significand exponent =>
      intro level rest hrest
      obtain ⟨number, hwrite, hvalue⟩ := exists_number_real hproper
      have hinteger : ¬number.IsInteger := by
        intro h
        rw [Number.value, if_pos h] at hvalue
        cases hvalue
      rw [writeAt, writeReal, hwrite, paired, ← hvalue]
      exact readValue_number (fun h => absurd h hinteger) hrest.endsNumber
    | infinite negative =>
      cases negative with
      | false => exact readsBack_word (by simp [words]) (fun _ => rfl) rfl
      | true => exact readsBack_word (by simp [words]) (fun _ => rfl) rfl
    | notANumber => exact readsBack_word (by simp [words]) (fun _ => rfl) rfl
  | string value => exact readsBack_string value
  | array helements ih => exact readsBack_array helements ih
  | object hkeys hvalues ih => exact readsBack_object hkeys hvalues ih

/-- A written value reads back, with the halves of surrogate pairs put together in its texts. -/
theorem read_write {value : Json} (h : value.IsFit) : read value.write = .ok value.paired := by
  obtain ⟨c, text, hcons, hblank, -, hmark⟩ := h.exists_writeAt_eq_cons 0
  have hread := h.readsBack 0 endsValue_nil
  rw [List.append_nil, hcons] at hread
  obtain ⟨shorter, hread⟩ := hread
  have hhead : ¬(c :: text).head? = some (.char '\ufeff') := fun heq => hmark (Option.some.inj heq)
  have hall : readAll (c :: text) = .ok value.paired := by
    unfold readAll
    refine (if_neg hhead).trans ?_
    rw [skip_cons hblank, hread]
    rfl
  rw [read, write, hcons, hall]
  rfl

end Json

end TsQuery
