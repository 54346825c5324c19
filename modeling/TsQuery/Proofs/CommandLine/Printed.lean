import Mathlib
import TsQuery.CommandLine.Run
import TsQuery.Proofs.Notation.Render
import TsQuery.Proofs.Scan.Clean
import TsQuery.Proofs.Text.Pieces

/-!
# What can be printed

A text is printed exactly if there is no half of a surrogate pair in it
(`CommandLine.printed_of_isEncodable`, `CommandLine.printed_eq_error`).  JSON can always be printed,
since the halves in its strings are written as escapes (`Json.isEncodable_write`).  A compiled text
is made of characters of the query and of signs, so it can be printed if the query has no half
(`Query.isEncodable_compiled`); it can be as well if each half stands in a word that is dropped.
-/

namespace TsQuery

/-- Whether there is no half of a surrogate pair in a text. -/
def Text.IsEncodable (text : Text) : Prop :=
  ∀ c ∈ text, c.isHalf = false

instance (text : Text) : Decidable text.IsEncodable :=
  inferInstanceAs (Decidable (∀ c ∈ text, _))

theorem Text.isEncodable_ofChars (chars : List Char) : (ofChars chars).IsEncodable :=
  List.forall_mem_map.2 fun _ _ => rfl

theorem Text.isEncodable_append {left right : Text} :
    (left ++ right).IsEncodable ↔ left.IsEncodable ∧ right.IsEncodable :=
  List.forall_mem_append

theorem Numeral.isEncodable_write (n : Int) : (write n).IsEncodable := by
  cases n with
  | ofNat n => exact Text.isEncodable_ofChars _
  | negSucc n => exact List.forall_mem_cons.2 ⟨rfl, Text.isEncodable_ofChars _⟩

/-! ### JSON -/

namespace Json

theorem isEncodable_hexText (width n : Nat) : (hexText width n).IsEncodable := by
  induction width generalizing n with
  | zero => exact List.forall_mem_nil _
  | succ width ih => exact List.forall_mem_append.2 ⟨ih _, List.forall_mem_singleton.2 rfl⟩

/-- A half is written as an escape. -/
theorem isEncodable_escapedChar (c : CodePoint) : (escapedChar c).IsEncodable := by
  have hunit (unit : Nat) : (unitEscape unit).IsEncodable :=
    List.forall_mem_cons.2 ⟨rfl, List.forall_mem_cons.2 ⟨rfl, isEncodable_hexText 4 unit⟩⟩
  have hhalf : c.toNat ≤ 0x7e → c.isHalf = false := by
    cases c with
    | char c => exact fun _ => rfl
    | half offset => exact fun h => absurd h (by simp only [CodePoint.toNat]; omega)
  unfold escapedChar
  split_ifs with hsign hn hr ht hf hb hplain hlt
  · rcases hsign with rfl | rfl <;> decide
  · decide
  · decide
  · decide
  · decide
  · decide
  · exact List.forall_mem_singleton.2 (hhalf hplain.2)
  · exact hunit _
  · exact Text.isEncodable_append.2 ⟨hunit _, hunit _⟩

theorem isEncodable_writeString (text : Text) : (writeString text).IsEncodable := by
  have hchars : Text.IsEncodable (text.flatMap escapedChar) := by
    intro c hc
    obtain ⟨d, -, hc⟩ := List.mem_flatMap.1 hc
    exact isEncodable_escapedChar d c hc
  exact Text.isEncodable_append.2 ⟨List.forall_mem_cons.2 ⟨rfl, hchars⟩,
    List.forall_mem_singleton.2 rfl⟩

theorem isEncodable_enclose (level : Nat) {opening closing : CodePoint}
    (hopening : opening.isHalf = false) (hclosing : closing.isHalf = false) {entries : List Text}
    (h : ∀ entry ∈ entries, Text.IsEncodable entry) :
    (enclose level opening closing entries).IsEncodable := by
  have hline (level : Nat) : (lineStart level).IsEncodable := by
    refine List.forall_mem_cons.2 ⟨rfl, fun c hc => ?_⟩
    rw [List.eq_of_mem_replicate hc]
    rfl
  have hseparator : Text.IsEncodable (.char ',' :: lineStart (level + 1)) :=
    List.forall_mem_cons.2 ⟨rfl, hline _⟩
  unfold enclose
  split_ifs
  · exact List.forall_mem_cons.2 ⟨hopening, List.forall_mem_singleton.2 hclosing⟩
  · simp only [Text.isEncodable_append]
    exact ⟨⟨⟨List.forall_mem_cons.2 ⟨hopening, hline _⟩, (Text.forall_mem_joined hseparator).2 h⟩,
      hline _⟩, List.forall_mem_singleton.2 hclosing⟩

mutual

/-- There is no half in a value that is written. -/
theorem isEncodable_writeAt (level : Nat) (value : Json) : (writeAt level value).IsEncodable := by
  cases value with
  | null => exact Text.isEncodable_ofChars _
  | bool value =>
    rw [writeAt]
    cases value <;> exact Text.isEncodable_ofChars _
  | int value => exact Numeral.isEncodable_write value
  | real value =>
    rw [writeAt]
    cases value with
    | finite negative significand exponent => exact Text.isEncodable_ofChars _
    | infinite negative => cases negative <;> exact Text.isEncodable_ofChars _
    | notANumber => exact Text.isEncodable_ofChars _
  | string value => exact isEncodable_writeString value
  | array elements => exact isEncodable_enclose level rfl rfl (isEncodable_writeElements _ elements)
  | object members => exact isEncodable_enclose level rfl rfl (isEncodable_writeMembers _ members)

theorem isEncodable_writeElements (level : Nat) (elements : List Json) :
    ∀ text ∈ writeElements level elements, Text.IsEncodable text := by
  cases elements with
  | nil => exact List.forall_mem_nil _
  | cons value elements =>
    exact List.forall_mem_cons.2
      ⟨isEncodable_writeAt level value, isEncodable_writeElements level elements⟩

theorem isEncodable_writeMembers (level : Nat) (members : List (Text × Json)) :
    ∀ text ∈ writeMembers level members, Text.IsEncodable text := by
  cases members with
  | nil => exact List.forall_mem_nil _
  | cons member members =>
    obtain ⟨key, value⟩ := member
    refine List.forall_mem_cons.2 ⟨?_, isEncodable_writeMembers level members⟩
    exact Text.isEncodable_append.2 ⟨Text.isEncodable_append.2
      ⟨isEncodable_writeString key, by decide⟩, isEncodable_writeAt level value⟩

end

/-- JSON can be encoded whatever its strings hold. -/
theorem isEncodable_write (value : Json) : value.write.IsEncodable :=
  isEncodable_writeAt 0 value

end Json

/-! ### Compiled texts -/

namespace Query

/-- A clean text can be encoded if the text can that it was made of. -/
theorem isEncodable_clean {text : Text} (h : text.IsEncodable) : (clean text).IsEncodable := by
  intro c hc
  obtain ⟨d, hd, rfl⟩ := List.mem_map.1 hc
  split
  · rfl
  · rcases mem_of_mem_spellLanguages hd with hd | hd
    · exact h d (List.mem_filter.1 hd).1
    · have hnames : Text.IsEncodable ("cplusplus" ++ "csharp" ++ "fsharp" : Text) := by decide
      exact hnames d hd

/-- A compiled text can be encoded if the query can. -/
theorem isEncodable_compiled {query : Text} (h : query.IsEncodable) :
    (compiled query).text.IsEncodable := by
  change Text.IsEncodable (Tree.renderOption (tree? (clean query)))
  cases htree : tree? (clean query) with
  | none => exact List.forall_mem_nil _
  | some tree =>
    refine Tree.forall_mem_render (by decide) fun word hword c hc => ?_
    have hwords := Tree.forall_words_ofTokens?
      (fun token htoken => isWordOf_of_mem_tokensFrom htoken) htree
    exact isEncodable_clean h c ((hwords word hword).2 c hc).2

end Query

/-! ### Printing -/

namespace CommandLine

theorem printed_of_isEncodable {output : Text} (h : output.IsEncodable) :
    printed output = .ok output := by
  rw [printed, Utf8.encodingFault?_eq_none_iff.2 h]

theorem isEncodable_line {text : Text} : (line text).IsEncodable ↔ text.IsEncodable := by
  rw [line, Text.isEncodable_append]
  exact and_iff_left (by decide)

/-- What is printed for a setting that is stored. -/
theorem isEncodable_settingLine (n : Int) :
    (settingLine Settings.limitKey (.int n)).IsEncodable := by
  have hvalue : (settingText (.int n)).IsEncodable := Numeral.isEncodable_write n
  rw [settingLine, isEncodable_line]
  simp only [Text.isEncodable_append]
  exact ⟨⟨⟨by decide, by decide⟩, by decide⟩, hvalue⟩

theorem printed_eq_error {output : Text} {fault : Utf8.EncodingFault}
    (h : Utf8.encodingFault? CodePoint.isHalf output = some fault) :
    printed output = .error (.unprintable fault) := by
  rw [printed, h]

theorem exists_encodingFault?_eq_some {output : Text} (h : ¬output.IsEncodable) :
    ∃ fault, Utf8.encodingFault? CodePoint.isHalf output = some fault :=
  Option.ne_none_iff_exists'.1 (mt Utf8.encodingFault?_eq_none_iff.1 h)

end CommandLine

end TsQuery
