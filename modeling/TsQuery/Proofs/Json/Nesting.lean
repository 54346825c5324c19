import Mathlib
import TsQuery.Json.Nesting
import TsQuery.Proofs.Json.RoundTrip

/-!
# When reading breaks off

Reading a written value breaks off exactly if more arrays and objects are within each other in it
than there is room for (`Json.overflow?_write`).  A text of opening brackets breaks it off as well,
though it is no JSON (`Json.overflow?_replicate`).
-/

namespace TsQuery

namespace Json

mutual

/-- How many arrays and objects are within each other in a value. -/
def nesting : Json → Nat
  | null | bool _ | int _ | real _ | string _ => 0
  | array elements => nestingOfElements elements + 1
  | object members => nestingOfMembers members + 1

/-- How many arrays and objects are within each other in elements. -/
def nestingOfElements : List Json → Nat
  | [] => 0
  | value :: rest => max (nesting value) (nestingOfElements rest)

/-- How many arrays and objects are within each other in members. -/
def nestingOfMembers : List (Text × Json) → Nat
  | [] => 0
  | (_, value) :: rest => max (nesting value) (nestingOfMembers rest)

end

/-! ### Brackets -/

section

variable {room : Nat} {text body following after more : Text} {value : Json} {c : CodePoint}

/-- Only a bracket needs room. -/
theorem overflow?_eq_none (harray : c ≠ '[') (hobject : c ≠ '\x7b') :
    overflow? room (c :: text) = none := by
  unfold overflow?
  rw [if_neg harray, if_neg hobject]

theorem overflow?_array_zero : overflow? 0 (.char '[' :: body) = some (.char '[') := by
  rw [overflow?, if_pos rfl]

/-- An array that is closed at once only needs room for itself. -/
theorem overflow?_array_nil (hskip : skip body = .char ']' :: after) :
    overflow? room (.char '[' :: body) = none ↔ 1 ≤ room := by
  have hhead : (skip body).head? = some (.char ']') := congrArg List.head? hskip
  cases room with
  | zero =>
    rw [overflow?_array_zero]
    exact iff_of_false nofun (by decide)
  | succ room =>
    rw [overflow?, if_pos rfl, if_pos hhead]
    exact iff_of_true rfl (Nat.succ_le_succ (Nat.zero_le room))

/-- In any other array the elements have the room that it leaves. -/
theorem overflow?_array (hskip : skip body = c :: more) (hc : c ≠ ']') :
    overflow? room (.char '[' :: body) = none ↔
      ∃ less, room = less + 1 ∧ elementsOverflow? less (c :: more) = none := by
  have hhead : ¬(skip body).head? = some (.char ']') := by
    rw [hskip]
    exact fun heq => hc (Option.some.inj heq)
  cases room with
  | zero =>
    rw [overflow?_array_zero]
    exact iff_of_false nofun (by rintro ⟨_, ⟨⟩, -⟩)
  | succ room =>
    rw [overflow?, if_pos rfl, if_neg hhead, hskip]
    refine ⟨fun h => ⟨room, rfl, h⟩, ?_⟩
    rintro ⟨_, ⟨⟩, h⟩
    exact h

theorem overflow?_object_zero : overflow? 0 (.char '\x7b' :: body) = some (.char '\x7b') := by
  rw [overflow?, if_neg (by decide), if_pos rfl]

/-- An object that is closed at once only needs room for itself. -/
theorem overflow?_object_nil (hskip : skip body = .char '\x7d' :: after) :
    overflow? room (.char '\x7b' :: body) = none ↔ 1 ≤ room := by
  have hhead : (skip body).head? = some (.char '\x7d') := congrArg List.head? hskip
  cases room with
  | zero =>
    rw [overflow?_object_zero]
    exact iff_of_false nofun (by decide)
  | succ room =>
    rw [overflow?, if_neg (by decide), if_pos rfl, if_pos hhead]
    exact iff_of_true rfl (Nat.succ_le_succ (Nat.zero_le room))

/-- In any other object the members have the room that it leaves. -/
theorem overflow?_object (hskip : skip body = c :: more) (hc : c ≠ '\x7d') :
    overflow? room (.char '\x7b' :: body) = none ↔
      ∃ less, room = less + 1 ∧ membersOverflow? less (c :: more) = none := by
  have hhead : ¬(skip body).head? = some (.char '\x7d') := by
    rw [hskip]
    exact fun heq => hc (Option.some.inj heq)
  cases room with
  | zero =>
    rw [overflow?_object_zero]
    exact iff_of_false nofun (by rintro ⟨_, ⟨⟩, -⟩)
  | succ room =>
    rw [overflow?, if_neg (by decide), if_pos rfl, if_neg hhead, hskip]
    refine ⟨fun h => ⟨room, rfl, h⟩, ?_⟩
    rintro ⟨_, ⟨⟩, h⟩
    exact h

/-- The first of the elements breaks reading off if it does so by itself. -/
theorem elementsOverflow?_of_eq_some (h : overflow? room text = some c) :
    elementsOverflow? room text = some c := by
  rw [elementsOverflow?, h]

/-- More opening brackets than there is room for break reading off, whatever follows them. -/
theorem overflow?_replicate {count : Nat} (h : room < count) (rest : Text) :
    overflow? room (List.replicate count (.char '[') ++ rest) = some (.char '[') := by
  induction room generalizing count with
  | zero =>
    obtain ⟨count, rfl⟩ := Nat.exists_eq_succ_of_ne_zero h.ne'
    exact overflow?_array_zero
  | succ room ih =>
    obtain ⟨count, rfl⟩ : ∃ less, count = less + 2 := ⟨count - 2, by omega⟩
    have hskip : skip (.char '[' :: (List.replicate count (.char '[') ++ rest)) =
        .char '[' :: (List.replicate count (.char '[') ++ rest) := skip_cons (by decide) _
    have hmore : overflow? room (.char '[' :: (List.replicate count (.char '[') ++ rest)) =
        some (.char '[') := by
      have hless : room < count + 1 := Nat.lt_of_succ_lt_succ h
      exact ih hless
    rw [List.replicate_succ, List.replicate_succ, List.cons_append, List.cons_append, overflow?,
      if_pos rfl, hskip, List.head?_cons, if_neg (by decide)]
    exact elementsOverflow?_of_eq_some hmore

/-! ### Elements and members -/

/-- The last element is all that can still break reading off. -/
theorem elementsOverflow?_last (hvalue : Gives (readValue text) value following)
    (hskip : skip following = .char ']' :: after) :
    elementsOverflow? room text = overflow? room text := by
  obtain ⟨hshorter, hread⟩ := hvalue
  rw [elementsOverflow?]
  cases hfirst : overflow? room text with
  | some bracket => rfl
  | none =>
    rw [hread]
    dsimp only
    split
    · next heq => rw [hskip] at heq; cases heq
    · rfl

/-- Behind a comma there are more elements that can break reading off. -/
theorem elementsOverflow?_more (hvalue : Gives (readValue text) value following)
    (hskip : skip following = .char ',' :: after) :
    elementsOverflow? room text = none ↔
      overflow? room text = none ∧ elementsOverflow? room (skip after) = none := by
  obtain ⟨hshorter, hread⟩ := hvalue
  rw [elementsOverflow?]
  cases hfirst : overflow? room text with
  | some bracket =>
    exact iff_of_false (Option.some_ne_none bracket) fun h => Option.some_ne_none bracket h.1
  | none =>
    rw [hread]
    dsimp only
    split
    · next heq =>
      rw [hskip] at heq
      cases heq
      exact (and_iff_right rfl).symm
    · next hother => exact absurd hskip (hother _)

section

variable {key afterKey colon : Text}
  (hkey : Gives (readString (.char '"' :: body) body) key afterKey)
  (hcolon : skip afterKey = .char ':' :: colon)
  (hvalue : Gives (readValue (skip colon)) value following)

include hkey hcolon hvalue

/-- The value of the last member is all that can still break reading off. -/
theorem membersOverflow?_last (hskip : skip following = .char '\x7d' :: after) :
    membersOverflow? room (.char '"' :: body) = overflow? room (skip colon) := by
  obtain ⟨hkeyshorter, hreadkey⟩ := hkey
  obtain ⟨hshorter, hread⟩ := hvalue
  rw [membersOverflow?, hreadkey]
  dsimp only
  split
  · next heq =>
    rw [hcolon] at heq
    cases heq
    cases hfirst : overflow? room (skip colon) with
    | some bracket => rfl
    | none =>
      rw [hread]
      dsimp only
      split
      · next heq => rw [hskip] at heq; cases heq
      · rfl
  · next hother => exact absurd hcolon (hother _)

/-- Behind a comma there are more members that can break reading off. -/
theorem membersOverflow?_more (hskip : skip following = .char ',' :: after) :
    membersOverflow? room (.char '"' :: body) = none ↔
      overflow? room (skip colon) = none ∧ membersOverflow? room (skip after) = none := by
  obtain ⟨hkeyshorter, hreadkey⟩ := hkey
  obtain ⟨hshorter, hread⟩ := hvalue
  rw [membersOverflow?, hreadkey]
  dsimp only
  split
  · next heq =>
    rw [hcolon] at heq
    cases heq
    cases hfirst : overflow? room (skip colon) with
    | some bracket =>
      exact iff_of_false (Option.some_ne_none bracket) fun h => Option.some_ne_none bracket h.1
    | none =>
      rw [hread]
      dsimp only
      split
      · next heq =>
        rw [hskip] at heq
        cases heq
        exact (and_iff_right rfl).symm
      · next hother => exact absurd hskip (hother _)
  · next hother => exact absurd hcolon (hother _)

end

end

/-! ### Written values -/

/-- Whether reading a value where it is written breaks off exactly if there is no room for it. -/
def FitsRoom (value : Json) : Prop :=
  ∀ (room level : Nat) {rest : Text}, EndsValue rest →
    (overflow? room (writeAt level value ++ rest) = none ↔ value.nesting ≤ room)

/-- There is room for elements that are written one to a line if there is for each of them. -/
theorem elementsOverflow?_written {elements : List Json} (hne : elements ≠ [])
    (hfit : ∀ value ∈ elements, value.IsFit) (hroom : ∀ value ∈ elements, value.FitsRoom)
    (room level outer : Nat) (rest : Text) :
    elementsOverflow? room (Text.joined (',' :: lineStart level) (writeElements level elements) ++
      (lineStart outer ++ .char ']' :: rest)) = none ↔ nestingOfElements elements ≤ room := by
  induction elements with
  | nil => exact absurd rfl hne
  | cons value elements ih =>
    obtain ⟨hvalue, hvalues⟩ := List.forall_mem_cons.1 hroom
    obtain ⟨hfirst, hfits⟩ := List.forall_mem_cons.1 hfit
    cases elements with
    | nil =>
      have hends := endsValue_lineStart outer (.char ']' :: rest)
      rw [writeElements, writeElements, joined_singleton,
        elementsOverflow?_last (hfirst.readsBack level hends)
          (skip_lineStart outer (by decide) rest),
        hvalue room level hends, nestingOfElements, nestingOfElements, Nat.max_zero]
    | cons next elements =>
      have hmore := ih (List.cons_ne_nil _ _) hfits hvalues
      obtain ⟨c, text, hcons, hc, -, -⟩ :=
        (hfits next List.mem_cons_self).exists_writeAt_eq_cons level
      rw [writeElements, hcons] at hmore
      rw [writeElements, writeElements, hcons, joined_cons_cons, List.append_assoc,
        List.cons_append, List.cons_append, List.append_assoc,
        elementsOverflow?_more (hfirst.readsBack level (endsValue_comma _))
          (skip_cons (by decide) _), hvalue room level (endsValue_comma _),
        skip_lineStart_joined level hc, hmore]
      exact Nat.max_le.symm

/-- There is room for members that are written one to a line if there is for the value of each. -/
theorem membersOverflow?_written {members : Members} (hne : members ≠ [])
    (hfit : ∀ member ∈ members, member.2.IsFit) (hroom : ∀ member ∈ members, member.2.FitsRoom)
    (room level outer : Nat) (rest : Text) :
    membersOverflow? room (Text.joined (',' :: lineStart level) (writeMembers level members) ++
      (lineStart outer ++ .char '\x7d' :: rest)) = none ↔ nestingOfMembers members ≤ room := by
  induction members with
  | nil => exact absurd rfl hne
  | cons member members ih =>
    obtain ⟨key, value⟩ := member
    obtain ⟨hvalue, hvalues⟩ := List.forall_mem_cons.1 hroom
    obtain ⟨hfirst, hfits⟩ := List.forall_mem_cons.1 hfit
    cases members with
    | nil =>
      have hends := endsValue_lineStart outer (.char '\x7d' :: rest)
      have hread := hfirst.readsBack level hends
      rw [← skip_writeAt hfirst] at hread
      rw [writeMembers_cons, writeMembers, joined_singleton, memberText_append,
        membersOverflow?_last (readString_escaped _ key _) (skip_cons (by decide) _) hread
          (skip_lineStart outer (by decide) rest),
        skip_writeAt hfirst, hvalue room level hends, nestingOfMembers, nestingOfMembers,
        Nat.max_zero]
    | cons next members =>
      obtain ⟨other, next⟩ := next
      have hmore := ih (List.cons_ne_nil _ _) hfits hvalues
      obtain ⟨text, htext⟩ : ∃ text, memberText level other next = .char '"' :: text := ⟨_, rfl⟩
      rw [writeMembers_cons, htext] at hmore
      have hread := hfirst.readsBack level (endsValue_comma (lineStart level ++ (Text.joined
        (.char ',' :: lineStart level) ((.char '"' :: text) :: writeMembers level members) ++
          (lineStart outer ++ .char '\x7d' :: rest))))
      rw [← skip_writeAt hfirst] at hread
      rw [writeMembers_cons, writeMembers_cons, joined_cons_cons, List.append_assoc,
        List.cons_append, List.cons_append, List.append_assoc, htext, memberText_append,
        membersOverflow?_more (readString_escaped _ key _) (skip_cons (by decide) _) hread
          (skip_cons (by decide) _),
        skip_writeAt hfirst, hvalue room level (endsValue_comma _),
        skip_lineStart_joined level (by decide), hmore]
      exact Nat.max_le.symm

theorem exists_eq_succ_and_le_iff {room depth : Nat} :
    (∃ less, room = less + 1 ∧ depth ≤ less) ↔ depth + 1 ≤ room := by
  constructor
  · rintro ⟨less, rfl, h⟩
    exact Nat.succ_le_succ h
  · intro h
    obtain ⟨less, rfl⟩ := Nat.exists_eq_succ_of_ne_zero (Nat.ne_zero_of_lt h)
    exact ⟨less, rfl, Nat.le_of_succ_le_succ h⟩

/-- There is room for an array if there is for its elements within it. -/
theorem fitsRoom_array {elements : List Json} (hfit : ∀ value ∈ elements, value.IsFit)
    (hroom : ∀ value ∈ elements, value.FitsRoom) : (array elements).FitsRoom := by
  intro room level rest hrest
  cases elements with
  | nil => exact overflow?_array_nil (skip_cons (by decide) rest)
  | cons value elements =>
    have hwritten (less : Nat) := elementsOverflow?_written (List.cons_ne_nil _ _) hfit hroom less
      (level + 1) level rest
    obtain ⟨c, text, hcons, hc, hclose, -⟩ :=
      (hfit value List.mem_cons_self).exists_writeAt_eq_cons (level + 1)
    obtain ⟨more, hmore⟩ := exists_joined_cons (.char ',' :: lineStart (level + 1)) (c :: text)
      (writeElements (level + 1) elements)
    rw [writeElements, hcons, hmore, List.cons_append, List.cons_append] at hwritten
    rw [writeAt, writeElements, hcons, enclose_append, hmore, List.cons_append, List.cons_append,
      overflow?_array (skip_lineStart (level + 1) hc _) hclose, nesting,
      ← exists_eq_succ_and_le_iff]
    exact exists_congr fun less => and_congr_right fun _ => hwritten less

/-- There is room for an object if there is for its members within it. -/
theorem fitsRoom_object {members : Members} (hfit : ∀ member ∈ members, member.2.IsFit)
    (hroom : ∀ member ∈ members, member.2.FitsRoom) : (object members).FitsRoom := by
  intro room level rest hrest
  cases members with
  | nil => exact overflow?_object_nil (skip_cons (by decide) rest)
  | cons member members =>
    obtain ⟨key, value⟩ := member
    have hwritten (less : Nat) := membersOverflow?_written (List.cons_ne_nil _ _) hfit hroom less
      (level + 1) level rest
    obtain ⟨text, htext⟩ : ∃ text, memberText (level + 1) key value = .char '"' :: text :=
      ⟨_, rfl⟩
    obtain ⟨more, hmore⟩ := exists_joined_cons (.char ',' :: lineStart (level + 1))
      (.char '"' :: text) (writeMembers (level + 1) members)
    rw [writeMembers_cons, htext, hmore, List.cons_append, List.cons_append] at hwritten
    rw [writeAt, writeMembers_cons, htext, enclose_append, hmore, List.cons_append,
      List.cons_append, overflow?_object (skip_lineStart (level + 1) (by decide) _) (by decide),
      nesting, ← exists_eq_succ_and_le_iff]
    exact exists_congr fun less => and_congr_right fun _ => hwritten less

/-- A value that is written without a bracket at its beginning needs no room. -/
theorem fitsRoom_of_first {value : Json} (hnesting : value.nesting = 0)
    (h : ∀ level, ∃ c text, writeAt level value = c :: text ∧ c ≠ '[' ∧ c ≠ '\x7b') :
    value.FitsRoom := by
  intro room level rest hrest
  obtain ⟨c, text, hcons, harray, hobject⟩ := h level
  rw [hcons, List.cons_append, hnesting]
  exact iff_of_true (overflow?_eq_none harray hobject) (Nat.zero_le room)

/-- A number begins with no bracket. -/
theorem Number.exists_chars_eq_cons_of_ne (number : Number) :
    ∃ c text, Text.ofChars number.chars = c :: text ∧ c ≠ '[' ∧ c ≠ '\x7b' := by
  obtain ⟨c, chars, hc, hchars | hchars⟩ := number.chars_cases
  · refine ⟨.char c, Text.ofChars chars, congrArg Text.ofChars hchars, ?_, ?_⟩
    · rintro ⟨⟩
      exact absurd hc (by decide)
    · rintro ⟨⟩
      exact absurd hc (by decide)
  · exact ⟨.char '-', Text.ofChars (c :: chars), congrArg Text.ofChars hchars, by decide, by decide⟩

/-- Reading a written value breaks off exactly if there is no room for it. -/
theorem IsFit.fitsRoom {value : Json} (h : value.IsFit) : value.FitsRoom := by
  induction h with
  | null => exact fitsRoom_of_first rfl fun _ => ⟨_, _, rfl, by decide, by decide⟩
  | bool value =>
    cases value <;> exact fitsRoom_of_first rfl fun _ => ⟨_, _, rfl, by decide, by decide⟩
  | @int value hlength =>
    refine fitsRoom_of_first rfl fun level => ?_
    obtain ⟨number, hwrite, -, -⟩ := exists_number_int value
    rw [writeAt, hwrite]
    exact number.exists_chars_eq_cons_of_ne
  | @real value hproper =>
    refine fitsRoom_of_first rfl fun level => ?_
    cases value with
    | finite negative significand exponent =>
      obtain ⟨number, hwrite, -⟩ := exists_number_real hproper
      rw [writeAt, writeReal, hwrite]
      exact number.exists_chars_eq_cons_of_ne
    | infinite negative => cases negative <;> exact ⟨_, _, rfl, by decide, by decide⟩
    | notANumber => exact ⟨_, _, rfl, by decide, by decide⟩
  | string value => exact fitsRoom_of_first rfl fun _ => ⟨_, _, rfl, by decide, by decide⟩
  | array helements ih => exact fitsRoom_array helements ih
  | object hkeys hvalues ih => exact fitsRoom_object hvalues ih

/-- Reading a written value breaks off exactly if more arrays and objects are within each other in
it than there is room for. -/
theorem overflow?_write {value : Json} (h : value.IsFit) (room : Nat) :
    overflow? room value.write = none ↔ value.nesting ≤ room := by
  have hroom := h.fitsRoom room 0 endsValue_nil
  rwa [List.append_nil] at hroom

end Json

end TsQuery
