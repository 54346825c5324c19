import Mathlib.Data.List.Basic
import TsQuery.Text.Basic

/-!
# Joining texts with blanks

Splitting a text at its blanks undoes joining texts with blanks, if none of them is empty or has a
blank itself (`Text.pieces_joined`).  Joining the joined members of a chain is joining all that is
in them, with the operator of the chain between each two members (`Text.joined_intercalate`).
-/

namespace TsQuery

namespace Text

/-- A kept beginning of a text belongs to its leading run. -/
theorem leadingRun_append {keep : CodePoint → Bool} {word : Text} (h : ∀ c ∈ word, keep c = true)
    (text : Text) :
    leadingRun keep (word ++ text) =
      (word ++ (leadingRun keep text).1, (leadingRun keep text).2) := by
  induction word with
  | nil => rfl
  | cons c word ih =>
    obtain ⟨hc, hword⟩ := List.forall_mem_cons.1 h
    change consRun keep c (leadingRun keep (word ++ text)) = _
    rw [ih hword, consRun, if_pos hc]
    rfl

/-- A text of kept characters is one run. -/
theorem runs_of_forall {keep : CodePoint → Bool} {word : Text} (hne : word ≠ [])
    (h : ∀ c ∈ word, keep c = true) : runs keep word = [word] := by
  have hrun := leadingRun_append h []
  rw [List.append_nil] at hrun
  have hword : (word ++ (leadingRun keep []).1).isEmpty = false :=
    List.isEmpty_eq_false_iff.2 (List.append_ne_nil_of_left_ne_nil hne _)
  rw [runs, hrun, closeRun, hword]
  exact congrArg (fun word => [word]) (List.append_nil word)

/-- A run ends at the first character that is not kept. -/
theorem runs_append_cons {keep : CodePoint → Bool} {word : Text} (hne : word ≠ [])
    (h : ∀ c ∈ word, keep c = true) {c : CodePoint} (hc : keep c = false) (text : Text) :
    runs keep (word ++ c :: text) = word :: runs keep text := by
  have hcons : leadingRun keep (c :: text) = ([], runs keep text) := by
    change consRun keep c (leadingRun keep text) = _
    rw [consRun, if_neg (by rw [hc]; decide)]
    rfl
  rw [runs, leadingRun_append h, hcons, List.append_nil, closeRun,
    if_neg (by rw [List.isEmpty_iff]; exact hne)]

/-- A property of texts that putting them one after another keeps is kept by joining them. -/
theorem joined_induction {P : Text → Prop} (nil : P [])
    (append : ∀ left right, P left → P right → P (left ++ right)) {separator : Text}
    (hseparator : P separator) {texts : List Text} (h : ∀ text ∈ texts, P text) :
    P (joined separator texts) := by
  induction texts with
  | nil => exact nil
  | cons text texts ih =>
    obtain ⟨htext, htexts⟩ := List.forall_mem_cons.1 h
    cases texts with
    | nil => rwa [joined, List.intercalate_singleton]
    | cons next more =>
      rw [joined, List.intercalate_cons_cons]
      exact append _ _ (append _ _ htext hseparator) (ih htexts)

/-- All that is in joined texts has a property exactly if all that is in each of them has it, as far
as the separator has it. -/
theorem forall_mem_joined {P : CodePoint → Prop} {separator : Text}
    (hseparator : ∀ c ∈ separator, P c) {texts : List Text} :
    (∀ c ∈ joined separator texts, P c) ↔ ∀ text ∈ texts, ∀ c ∈ text, P c := by
  induction texts with
  | nil => exact iff_of_true nofun nofun
  | cons text texts ih =>
    cases texts with
    | nil => rw [joined, List.intercalate_singleton, List.forall_mem_singleton]
    | cons second texts =>
      rw [joined, List.intercalate_cons_cons, List.forall_mem_append, List.forall_mem_append,
        List.forall_mem_cons]
      exact ⟨fun ⟨⟨htext, _⟩, hmore⟩ => ⟨htext, ih.1 hmore⟩,
        fun ⟨htext, hmore⟩ => ⟨⟨htext, hseparator⟩, ih.2 hmore⟩⟩

/-- Splitting at blanks undoes joining with blanks. -/
theorem pieces_joined {parts : List Text}
    (h : ∀ part ∈ parts, part ≠ [] ∧ ∀ c ∈ part, isBlank c = false) :
    (joined [.char ' '] parts).pieces = parts := by
  induction parts with
  | nil => rfl
  | cons part parts ih =>
    obtain ⟨⟨hne, hpart⟩, hparts⟩ := List.forall_mem_cons.1 h
    have hkeep : ∀ c ∈ part, (!isBlank c) = true := by
      intro c hc
      rw [hpart c hc, Bool.not_false]
    cases parts with
    | nil =>
      rw [joined, List.intercalate_singleton]
      exact runs_of_forall hne hkeep
    | cons next more =>
      have hblank : (!isBlank (.char ' ')) = false := by decide
      rw [joined, List.intercalate_cons_cons, List.append_assoc, List.singleton_append, pieces,
        runs_append_cons hne hkeep hblank]
      exact congrArg (part :: ·) (ih hparts)

/-- Joining two lists of texts puts the separator where they meet. -/
theorem joined_append (separator : CodePoint) {left right : List Text} (hleft : left ≠ [])
    (hright : right ≠ []) :
    joined [separator] (left ++ right) =
      joined [separator] left ++ separator :: joined [separator] right := by
  induction left with
  | nil => exact absurd rfl hleft
  | cons text left ih =>
    cases left with
    | nil =>
      cases right with
      | nil => exact absurd rfl hright
      | cons next more =>
        simp only [joined, List.singleton_append, List.intercalate_cons_cons,
          List.intercalate_singleton, List.append_assoc]
    | cons next more =>
      have hrest := ih (List.cons_ne_nil next more)
      simp only [joined, List.cons_append, List.intercalate_cons_cons] at hrest ⊢
      rw [hrest]
      simp only [List.append_assoc]

theorem intercalate_ne_nil (sign : Text) {members : List (List Text)} (hne : members ≠ [])
    (h : ∀ member ∈ members, member ≠ []) : [sign].intercalate members ≠ [] := by
  cases members with
  | nil => exact absurd rfl hne
  | cons member members =>
    cases members with
    | nil =>
      rw [List.intercalate_singleton]
      exact h member List.mem_cons_self
    | cons next more =>
      rw [List.intercalate_cons_cons, List.append_assoc]
      exact List.append_ne_nil_of_right_ne_nil _ (List.cons_ne_nil sign _)

/-- Joining parts of which lists have a sign between each two is joining the lists, with the sign
and a blank on each side of it between each two. -/
theorem joined_intercalate (sign : Text) {members : List (List Text)}
    (h : ∀ member ∈ members, member ≠ []) :
    joined [.char ' '] ([sign].intercalate members) =
      joined (.char ' ' :: (sign ++ [.char ' '])) (members.map (joined [.char ' '])) := by
  induction members with
  | nil => rfl
  | cons member members ih =>
    obtain ⟨hmember, hmembers⟩ := List.forall_mem_cons.1 h
    cases members with
    | nil => simp only [joined, List.map_cons, List.map_nil, List.intercalate_singleton]
    | cons next more =>
      have hrest : [sign].intercalate (next :: more) ≠ [] :=
        intercalate_ne_nil sign (List.cons_ne_nil next more) hmembers
      have hjoined := ih hmembers
      rw [List.intercalate_cons_cons, List.append_assoc,
        joined_append _ hmember (List.append_ne_nil_of_right_ne_nil _ hrest),
        joined_append _ (List.cons_ne_nil sign []) hrest, hjoined]
      simp only [joined, List.map_cons, List.intercalate_cons_cons, List.intercalate_singleton,
        List.append_assoc, List.cons_append, List.nil_append]

end Text

end TsQuery
