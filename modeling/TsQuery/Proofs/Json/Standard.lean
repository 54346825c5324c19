import Mathlib
import TsQuery.Proofs.Json.Grammar
import TsQuery.Proofs.Json.RoundTrip

/-!
# What is written and the standard

A written value is a text that the standard allows exactly if all its numbers are finite
(`Json.isStandard_write`).  The infinities and the value that is not a number are written as words
that the standard does not have, and these can be told from all else by their first character.
-/

namespace TsQuery

/-- Whether a floating-point number is finite. -/
def Binary64.isFinite : Binary64 → Bool
  | .finite _ _ _ => true
  | .infinite _ => false
  | .notANumber => false

namespace Json

mutual

/-- Whether all numbers in a value are finite. -/
def isFinite : Json → Bool
  | null => true
  | bool _ => true
  | int _ => true
  | real value => value.isFinite
  | string _ => true
  | array elements => isFiniteElements elements
  | object members => isFiniteMembers members

/-- Whether all numbers in elements are finite. -/
def isFiniteElements : List Json → Bool
  | [] => true
  | value :: rest => isFinite value && isFiniteElements rest

/-- Whether all numbers in members are finite. -/
def isFiniteMembers : List (Text × Json) → Bool
  | [] => true
  | (_, value) :: rest => isFinite value && isFiniteMembers rest

end

/-! ### Strings -/

/-- The forms of a character are pieces of a string. -/
theorem EscapedForm.exists_pieces {c : CodePoint} {form : Text} (h : EscapedForm c form) :
    ∃ pieces : List Text, (∀ piece ∈ pieces, IsStringChar piece) ∧ form = pieces.flatten := by
  have hunit : ∀ n, IsStringChar (unitEscape n) := by
    intro n
    have hmod : ∀ m : Nat, m % 16 < 16 := fun m => Nat.mod_lt m (by decide)
    refine .unit (by rw [hexText_four]; rfl) ?_
    rw [hexText_four]
    simp only [List.forall_mem_cons, hexDigitValue?_digitChar (hmod _)]
    exact ⟨nofun, nofun, nofun, nofun, nofun⟩
  cases h with
  | plain hquote hbackslash hcontrol =>
    exact ⟨[[c]], List.forall_mem_singleton.2 (.plain hcontrol hquote hbackslash), rfl⟩
  | @letter letter hu hescape =>
    refine ⟨[['\\', letter]], List.forall_mem_singleton.2 (.letter ?_), rfl⟩
    unfold shortEscape? at hescape
    split at hescape
    all_goals first | decide | cases hescape
  | unit hlt =>
    refine ⟨[unitEscape c.toNat], List.forall_mem_singleton.2 (hunit _), ?_⟩
    rw [List.flatten_singleton]
  | pair hle =>
    exact ⟨[unitEscape (0xd800 + (c.toNat - 0x10000) / 0x400),
      unitEscape (0xdc00 + (c.toNat - 0x10000) % 0x400)],
      List.forall_mem_cons.2 ⟨hunit _, List.forall_mem_singleton.2 (hunit _)⟩, by simp⟩

/-- A text is written as a string. -/
theorem isString_writeString (text : Text) : IsString (writeString text) := by
  have hpieces : ∃ pieces : List Text, (∀ piece ∈ pieces, IsStringChar piece) ∧
      text.flatMap escapedChar = pieces.flatten := by
    induction text with
    | nil => exact ⟨[], nofun, rfl⟩
    | cons c text ih =>
      obtain ⟨pieces, hpieces, hflatten⟩ := ih
      obtain ⟨first, hfirst, hform⟩ := (escapedForm_escapedChar c).exists_pieces
      refine ⟨first ++ pieces, List.forall_mem_append.2 ⟨hfirst, hpieces⟩, ?_⟩
      rw [List.flatMap_cons, hflatten, hform, List.flatten_append]
  obtain ⟨pieces, hpieces, hflatten⟩ := hpieces
  have hstring := IsString.chars hpieces
  rw [← hflatten] at hstring
  exact hstring

/-! ### Finite numbers -/

theorem isBlanks_lineStart (level : Nat) : IsBlanks (lineStart level) := by
  intro c hc
  rcases List.mem_cons.1 hc with rfl | hc
  · rfl
  · rw [List.eq_of_mem_replicate hc]
    rfl

theorem isBlanks_nil : IsBlanks [] :=
  nofun

/-- Whether a value is written as the standard has it, wherever it stands. -/
def IsWrittenStandard (value : Json) : Prop :=
  ∀ level, Standard .value (writeAt level value)

/-- Elements are written as the standard has them, one to a line. -/
theorem standard_elements {elements : List Json} (hne : elements ≠ [])
    (h : ∀ value ∈ elements, value.IsWrittenStandard) (level outer : Nat) :
    Standard .elements (lineStart level ++
      (Text.joined (',' :: lineStart level) (writeElements level elements) ++
        lineStart outer)) := by
  induction elements with
  | nil => exact absurd rfl hne
  | cons value elements ih =>
    obtain ⟨hvalue, hvalues⟩ := List.forall_mem_cons.1 h
    cases elements with
    | nil =>
      rw [writeElements, writeElements, joined_singleton]
      exact .lastElement (isBlanks_lineStart level) (hvalue level) (isBlanks_lineStart outer)
    | cons next elements =>
      have hmore := ih (List.cons_ne_nil _ _) hvalues
      have hfirst := Standard.lastElement (isBlanks_lineStart level) (hvalue level) isBlanks_nil
      rw [List.append_nil] at hfirst
      rw [writeElements] at hmore
      rw [writeElements, writeElements, joined_cons_cons]
      simpa using Standard.moreElements hfirst hmore

/-- Members are written as the standard has them, one to a line. -/
theorem standard_members {members : Members} (hne : members ≠ [])
    (h : ∀ member ∈ members, member.2.IsWrittenStandard) (level outer : Nat) :
    Standard .members (lineStart level ++
      (Text.joined (',' :: lineStart level) (writeMembers level members) ++ lineStart outer)) := by
  have hmember : ∀ (key : Text) {value : Json} {after : Text}, value.IsWrittenStandard →
      IsBlanks after →
        Standard .members (lineStart level ++ (memberText level key value ++ after)) := by
    intro key value after hvalue hafter
    have hblank : IsBlanks [.char ' '] := by
      intro c hc
      rw [List.mem_singleton.1 hc]
      rfl
    have hlast := Standard.lastMember (isBlanks_lineStart level) (isString_writeString key)
      isBlanks_nil hblank (hvalue level) hafter
    simpa [memberText] using hlast
  induction members with
  | nil => exact absurd rfl hne
  | cons member members ih =>
    obtain ⟨key, value⟩ := member
    obtain ⟨hvalue, hvalues⟩ := List.forall_mem_cons.1 h
    cases members with
    | nil =>
      rw [writeMembers_cons, writeMembers, joined_singleton]
      exact hmember key hvalue (isBlanks_lineStart outer)
    | cons next members =>
      obtain ⟨other, next⟩ := next
      have hmore := ih (List.cons_ne_nil _ _) hvalues
      have hfirst := hmember key hvalue isBlanks_nil
      rw [writeMembers_cons] at hmore
      rw [writeMembers_cons, writeMembers_cons, joined_cons_cons]
      simpa using Standard.moreMembers hfirst hmore

theorem isFiniteElements_iff {elements : List Json} :
    isFiniteElements elements = true ↔ ∀ value ∈ elements, value.isFinite = true := by
  induction elements with
  | nil => exact iff_of_true rfl nofun
  | cons value elements ih =>
    rw [isFiniteElements, Bool.and_eq_true, ih, List.forall_mem_cons]

theorem exists_of_isFiniteElements_eq_false {elements : List Json}
    (h : isFiniteElements elements = false) : ∃ value ∈ elements, value.isFinite = false := by
  by_contra hnone
  push Not at hnone
  have hall := isFiniteElements_iff.2 fun value hmem => Bool.of_not_eq_false (hnone value hmem)
  exact absurd (hall.symm.trans h) (by decide)

theorem isFiniteMembers_iff {members : Members} :
    isFiniteMembers members = true ↔ ∀ member ∈ members, member.2.isFinite = true := by
  induction members with
  | nil => exact iff_of_true rfl nofun
  | cons member members ih =>
    rw [isFiniteMembers, Bool.and_eq_true, ih, List.forall_mem_cons]

theorem exists_of_isFiniteMembers_eq_false {members : Members}
    (h : isFiniteMembers members = false) : ∃ member ∈ members, member.2.isFinite = false := by
  by_contra hnone
  push Not at hnone
  have hall := isFiniteMembers_iff.2 fun member hmem => Bool.of_not_eq_false (hnone member hmem)
  exact absurd (hall.symm.trans h) (by decide)

/-- A value whose numbers are finite is written as the standard has it. -/
theorem IsFit.isWrittenStandard {value : Json} (h : value.IsFit) (hfinite : value.isFinite = true) :
    value.IsWrittenStandard := by
  induction h with
  | null => exact fun _ => .word (by decide)
  | bool value =>
    intro level
    cases value with
    | false => exact .word (by decide)
    | true => exact .word (by decide)
  | @int value hlength =>
    intro level
    obtain ⟨number, hwrite, -, -⟩ := exists_number_int value
    rw [writeAt, hwrite]
    exact .number number
  | @real value hproper =>
    intro level
    cases value with
    | finite negative significand exponent =>
      obtain ⟨number, hwrite, -⟩ := exists_number_real hproper
      rw [writeAt, writeReal, hwrite]
      exact .number number
    | infinite negative => cases hfinite
    | notANumber => cases hfinite
  | string value => exact fun _ => .string (isString_writeString value)
  | @array elements helements ih =>
    intro level
    have hvalues := isFiniteElements_iff.1 hfinite
    cases elements with
    | nil => exact .emptyArray isBlanks_nil
    | cons value elements =>
      have hstandard := standard_elements (List.cons_ne_nil _ _)
        (fun value hmem => ih value hmem (hvalues value hmem)) (level + 1) level
      simpa [writeAt, writeElements, enclose] using Standard.array hstandard
  | @object members hkeys hfit ih =>
    intro level
    have hvalues := isFiniteMembers_iff.1 hfinite
    cases members with
    | nil => exact .emptyObject isBlanks_nil
    | cons member members =>
      have hstandard := standard_members (List.cons_ne_nil _ _)
        (fun member hmem => ih member hmem (hvalues member hmem)) (level + 1) level
      simpa [writeAt, writeMembers, enclose] using Standard.object hstandard

/-! ### Numbers that are not finite -/

theorem isClosed_singleton {c : CodePoint} (hc : c ≠ '"') : IsClosed [c] :=
  isClosed_of_notMem (by rwa [List.mem_singleton, eq_comm])

theorem isPlain_lineStart (level : Nat) : IsPlain (lineStart level) :=
  .blanks (isBlanks_lineStart level)

/-- Closed texts one after another are closed, and what stands outside of strings in one of them
does so in all of them. -/
theorem isClosed_joined {separator : Text} (hseparator : IsClosed separator) {texts : List Text}
    (h : ∀ text ∈ texts, IsClosed text) :
    IsClosed (Text.joined separator texts) ∧ ∀ text ∈ texts, ∀ c ∈ outside .outside text,
      c ∈ outside .outside (Text.joined separator texts) := by
  induction texts with
  | nil => exact ⟨isClosed_nil, nofun⟩
  | cons first texts ih =>
    obtain ⟨hfirst, htexts⟩ := List.forall_mem_cons.1 h
    cases texts with
    | nil =>
      rw [joined_singleton]
      exact ⟨hfirst, List.forall_mem_singleton.2 fun _ hc => hc⟩
    | cons second texts =>
      obtain ⟨hclosed, hmem⟩ := ih htexts
      rw [joined_cons_cons]
      refine ⟨hfirst.append (hseparator.append hclosed), ?_⟩
      rw [hfirst, hseparator]
      refine List.forall_mem_cons.2 ⟨fun c hc => List.mem_append_left _ hc, ?_⟩
      exact fun text htext c hc =>
        List.mem_append_right _ (List.mem_append_right _ (hmem text htext c hc))

/-- Closed entries between brackets are closed, and what stands outside of strings in one of them
does so in all of them. -/
theorem isClosed_enclose {opening closing : CodePoint} (hopening : opening ≠ '"')
    (hclosing : closing ≠ '"') (level : Nat) {entries : List Text}
    (h : ∀ entry ∈ entries, IsClosed entry) :
    IsClosed (enclose level opening closing entries) ∧ ∀ entry ∈ entries,
      ∀ c ∈ outside .outside entry,
        c ∈ outside .outside (enclose level opening closing entries) := by
  have hseparator : IsClosed (.char ',' :: lineStart (level + 1)) :=
    (isClosed_singleton (by decide)).append (isPlain_lineStart _).isClosed
  obtain ⟨hclosed, hmem⟩ := isClosed_joined hseparator h
  have hopen := isClosed_singleton hopening
  have hclose := isClosed_singleton hclosing
  cases entries with
  | nil => exact ⟨hopen.append hclose, nofun⟩
  | cons first entries =>
    have htext : enclose level opening closing (first :: entries) = [opening] ++
        (lineStart (level + 1) ++ (Text.joined (.char ',' :: lineStart (level + 1))
          (first :: entries) ++ (lineStart level ++ [closing]))) := by
      rw [← List.append_nil (enclose level opening closing (first :: entries)), enclose_append]
      rfl
    have hend := (isPlain_lineStart level).isClosed.append hclose
    have hline := (isPlain_lineStart (level + 1)).isClosed
    rw [htext]
    refine ⟨hopen.append (hline.append (hclosed.append hend)), ?_⟩
    intro entry hentry c hc
    rw [hopen, hline, hclosed]
    exact List.mem_append_right _ (List.mem_append_right _
      (List.mem_append_left _ (hmem entry hentry c hc)))

theorem writeElements_eq_map (level : Nat) (elements : List Json) :
    writeElements level elements = elements.map (writeAt level) := by
  induction elements with
  | nil => rfl
  | cons value elements ih => rw [writeElements, ih, List.map_cons]

theorem writeMembers_eq_map (level : Nat) (members : Members) :
    writeMembers level members =
      members.map fun member => memberText level member.1 member.2 := by
  induction members with
  | nil => rfl
  | cons member members ih => rw [writeMembers_cons, ih, List.map_cons]

/-- Whether a text is closed, and one of the capitals stands outside of its strings if a value is
not finite. -/
structure Tells (value : Json) (text : Text) : Prop where
  isClosed : IsClosed text
  exists_mem : value.isFinite = false → ∃ c ∈ outside .outside text, c ∈ capitals

namespace Tells

/-- What is finite is written as the standard has it. -/
theorem of_isFinite {value : Json} (h : value.IsFit) (hfinite : value.isFinite = true)
    (level : Nat) : value.Tells (writeAt level value) := by
  refine ⟨(h.isWrittenStandard hfinite level).isPlain.isClosed, ?_⟩
  exact fun hnot => absurd (hfinite.symm.trans hnot) (by decide)

/-- A word that begins with one of the capitals. -/
theorem of_word {value : Json} {word : Text} (hquote : .char '"' ∉ word)
    (hcapital : ∃ c ∈ word, c ∈ capitals) : value.Tells word := by
  refine ⟨isClosed_of_notMem hquote, fun _ => ?_⟩
  rwa [outside_of_notMem hquote]

/-- A key in front of a value changes nothing. -/
theorem memberText {value : Json} {level : Nat} (h : value.Tells (writeAt level value))
    (key : Text) : value.Tells (Json.memberText level key value) := by
  have hkey := (isString_writeString key).isClosed
  have hcolon : IsClosed [.char ':', .char ' '] := isClosed_of_notMem (by decide)
  refine ⟨(hkey.append hcolon).append h.isClosed, fun hfinite => ?_⟩
  obtain ⟨c, hc, hcapital⟩ := h.exists_mem hfinite
  refine ⟨c, ?_, hcapital⟩
  rw [Json.memberText, hkey.append hcolon]
  exact List.mem_append_right _ hc

/-- Brackets around entries of which one tells that it is not finite. -/
theorem enclose {value : Json} {opening closing : CodePoint} (hopening : opening ≠ '"')
    (hclosing : closing ≠ '"') (level : Nat) {entries : List (Json × Text)}
    (h : ∀ entry ∈ entries, entry.1.Tells entry.2)
    (hfinite : value.isFinite = false → ∃ entry ∈ entries, entry.1.isFinite = false) :
    value.Tells (Json.enclose level opening closing (entries.map Prod.snd)) := by
  have hentries : ∀ text ∈ entries.map Prod.snd, IsClosed text :=
    List.forall_mem_map.2 fun entry hentry => (h entry hentry).isClosed
  obtain ⟨hclosed, hmem⟩ := isClosed_enclose hopening hclosing level hentries
  refine ⟨hclosed, fun hvalue => ?_⟩
  obtain ⟨entry, hentry, hentryfinite⟩ := hfinite hvalue
  obtain ⟨c, hc, hcapital⟩ := (h entry hentry).exists_mem hentryfinite
  exact ⟨c, hmem entry.2 (List.mem_map_of_mem hentry) c hc, hcapital⟩

end Tells

/-- A written value tells whether it is finite. -/
theorem IsFit.tells {value : Json} (h : value.IsFit) (level : Nat) :
    value.Tells (writeAt level value) := by
  induction h generalizing level with
  | null => exact .of_isFinite .null rfl level
  | bool value => exact .of_isFinite (.bool value) rfl level
  | int hlength => exact .of_isFinite (.int hlength) rfl level
  | @real value hproper =>
    cases value with
    | finite negative significand exponent => exact .of_isFinite (.real hproper) rfl level
    | infinite negative =>
      have hword : ∀ word ∈ ["Infinity", "-Infinity"], .char '"' ∉ Text.ofString word ∧
          ∃ c ∈ Text.ofString word, c ∈ capitals := by decide
      cases negative with
      | false => exact .of_word (hword "Infinity" (by decide)).1 (hword "Infinity" (by decide)).2
      | true => exact .of_word (hword "-Infinity" (by decide)).1 (hword "-Infinity" (by decide)).2
    | notANumber =>
      have hword : .char '"' ∉ Text.ofString "NaN" ∧ ∃ c ∈ Text.ofString "NaN", c ∈ capitals := by
        decide
      exact .of_word hword.1 hword.2
  | string value => exact .of_isFinite (.string value) rfl level
  | @array elements helements ih =>
    have htells : Tells (.array elements) (Json.enclose level '[' ']'
        ((elements.map fun value => (value, writeAt (level + 1) value)).map Prod.snd)) := by
      refine .enclose (by decide) (by decide) level ?_ ?_
      · exact List.forall_mem_map.2 fun value hmem => ih value hmem (level + 1)
      · intro hfinite
        obtain ⟨value, hmem, hvalue⟩ := exists_of_isFiniteElements_eq_false hfinite
        exact ⟨_, List.mem_map_of_mem hmem, hvalue⟩
    rw [List.map_map] at htells
    rw [writeAt, writeElements_eq_map]
    exact htells
  | @object members hkeys hfit ih =>
    have htells : Tells (.object members) (Json.enclose level '\x7b' '\x7d'
        ((members.map fun member => (member.2, memberText (level + 1) member.1 member.2)).map
          Prod.snd)) := by
      refine .enclose (by decide) (by decide) level ?_ ?_
      · exact List.forall_mem_map.2 fun member hmem =>
          (ih member hmem (level + 1)).memberText member.1
      · intro hfinite
        obtain ⟨member, hmem, hmember⟩ := exists_of_isFiniteMembers_eq_false hfinite
        exact ⟨_, List.mem_map_of_mem hmem, hmember⟩
    rw [List.map_map] at htells
    rw [writeAt, writeMembers_eq_map]
    exact htells

/-- A written value is a text that the standard allows exactly if all its numbers are finite. -/
theorem isStandard_write {value : Json} (h : value.IsFit) :
    IsStandard value.write ↔ value.isFinite = true := by
  constructor
  · intro hstandard
    by_contra hnot
    obtain ⟨c, hc, hcapital⟩ := (h.tells 0).exists_mem (Bool.eq_false_iff.2 hnot)
    exact hstandard.isPlain.notMem c hc hcapital
  · intro hfinite
    have hstandard := IsStandard.text isBlanks_nil (h.isWrittenStandard hfinite 0) isBlanks_nil
    rwa [List.append_nil, List.nil_append] at hstandard

end Json

end TsQuery
