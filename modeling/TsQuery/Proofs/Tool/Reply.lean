import Mathlib
import TsQuery.Proofs.Json.Reading
import TsQuery.Proofs.Json.Standard
import TsQuery.Server

/-!
# Replies as texts

A server answers every call with a text that reads back as the answer, the halves of surrogate pairs
put together, and that the JSON standard allows unless it echoes a number that is not finite
(`Server.call_toText`).  Such a number comes from a numeral of the arguments that is too great for a
floating-point number (`Server.not_forall_isStandard`).
-/

namespace TsQuery

namespace Json

/-- The texts of strings are different if the strings are. -/
theorem ofString_injective : Function.Injective Text.ofString := by
  intro s t h
  have hchar : Function.Injective CodePoint.char := fun c d heq => CodePoint.char.inj heq
  exact String.toList_inj.1 (List.map_injective_iff.2 hchar h)

theorem paired_ofString (s : String) : (Text.ofString s).paired = s :=
  Text.paired_eq_self.2 (Text.isPaired_ofChars s.toList)

/-- Members with different strings as keys are fit if their values are. -/
theorem isFit_ofMembers {keys : List String} (hkeys : keys.Nodup) {members : List (String × Json)}
    (heq : members.map Prod.fst = keys) (h : ∀ member ∈ members, member.2.IsFit) :
    IsFit (.ofMembers members) := by
  refine .object ?_ (List.forall_mem_map.2 h)
  have hmap : (members.map fun member => ((member.1 : Text), member.2)).map
      (fun member => member.1.paired) = keys.map Text.ofString := by
    rw [← heq, List.map_map, List.map_map]
    exact List.map_congr_left fun member _ => paired_ofString member.1
  exact hmap ▸ hkeys.map ofString_injective

/-- Texts are fit as an array of strings. -/
theorem isFit_ofTexts (texts : List Text) : IsFit (.ofTexts texts) :=
  .array (List.forall_mem_map.2 fun text _ => .string text)

theorem isFinite_ofMembers {members : List (String × Json)} :
    (ofMembers members).isFinite = true ↔ ∀ member ∈ members, member.2.isFinite = true := by
  rw [ofMembers, isFinite, isFiniteMembers_iff]
  exact List.forall_mem_map

theorem isFinite_ofTexts (texts : List Text) : (ofTexts texts).isFinite = true :=
  isFiniteElements_iff.2 (List.forall_mem_map.2 fun _ _ => rfl)

end Json

/-! ### Refusals -/

namespace Refusal

/-- A refused value is echoed as a value that can be written. -/
theorem isFit_echo {value : Json} (h : value.HasFitNumbers) : (echo value).IsFit := by
  cases h with
  | null => exact .null
  | bool value => exact .bool value
  | int hlength => exact .int hlength
  | real hproper => exact .real hproper
  | string value => exact .string value
  | array helements => exact .string _
  | object hvalues => exact .string _

theorem isFit_toJson {refusal : Refusal} (h : refusal.value.HasFitNumbers) :
    refusal.toJson.IsFit := by
  refine Json.isFit_ofMembers (by decide : ["code", "field", "value", "message"].Nodup) rfl ?_
  simp only [List.forall_mem_cons]
  exact ⟨.string _, .string _, isFit_echo h, .string _, nofun⟩

/-- An echo is finite unless the refused value is itself a number that is not. -/
theorem isFinite_echo {value : Json} :
    (echo value).isFinite = true ↔ ∀ x, value = .real x → x.isFinite = true := by
  cases value with
  | real x => exact ⟨fun h y heq => Json.real.inj heq ▸ h, fun h => h x rfl⟩
  | _ => exact iff_of_true rfl nofun

theorem isFinite_toJson {refusal : Refusal} :
    refusal.toJson.isFinite = true ↔ ∀ x, refusal.value = .real x → x.isFinite = true := by
  rw [toJson, Json.isFinite_ofMembers, ← isFinite_echo]
  simp only [List.forall_mem_cons]
  exact ⟨fun h => h.2.2.1, fun h => ⟨rfl, rfl, h, rfl, nofun⟩⟩

end Refusal

/-! ### Replies -/

namespace ToolResult

theorem isFit_toJson (result : ToolResult) :
    (Json.ofMembers (("success", .bool true) :: result.toMembers)).IsFit := by
  cases result with
  | compiled query =>
    refine Json.isFit_ofMembers (by decide :
      ["success", "compiled_text", "include_terms", "exclude_terms"].Nodup) rfl ?_
    simp only [toMembers, Compiled.toMembers, Vocabulary.toMembers, List.forall_mem_cons]
    exact ⟨.bool true, .string _, Json.isFit_ofTexts _, Json.isFit_ofTexts _, nofun⟩
  | vocabulary words =>
    refine Json.isFit_ofMembers
      (by decide : ["success", "include_terms", "exclude_terms"].Nodup) rfl ?_
    simp only [toMembers, Vocabulary.toMembers, List.forall_mem_cons]
    exact ⟨.bool true, Json.isFit_ofTexts _, Json.isFit_ofTexts _, nofun⟩
  | terms words =>
    refine Json.isFit_ofMembers (by decide : ["success", "terms"].Nodup) rfl ?_
    simp only [toMembers, List.forall_mem_cons]
    exact ⟨.bool true, Json.isFit_ofTexts _, nofun⟩

theorem isFinite_toJson (result : ToolResult) :
    (Json.ofMembers (("success", .bool true) :: result.toMembers)).isFinite = true := by
  rw [Json.isFinite_ofMembers]
  cases result with
  | compiled query =>
    simp only [toMembers, Compiled.toMembers, Vocabulary.toMembers, List.forall_mem_cons]
    exact ⟨rfl, rfl, Json.isFinite_ofTexts _, Json.isFinite_ofTexts _, nofun⟩
  | vocabulary words =>
    simp only [toMembers, Vocabulary.toMembers, List.forall_mem_cons]
    exact ⟨rfl, Json.isFinite_ofTexts _, Json.isFinite_ofTexts _, nofun⟩
  | terms words =>
    simp only [toMembers, List.forall_mem_cons]
    exact ⟨rfl, Json.isFinite_ofTexts _, nofun⟩

end ToolResult

namespace Reply

/-- An answer can be written if the value that it refuses has fit numbers. -/
theorem isFit_toJson {reply : Reply}
    (h : ∀ refusal, reply = .refused refusal → refusal.value.HasFitNumbers) :
    reply.toJson.IsFit := by
  cases reply with
  | done result => exact result.isFit_toJson
  | refused refusal =>
    refine Json.isFit_ofMembers (by decide : ["success", "error"].Nodup) rfl ?_
    simp only [List.forall_mem_cons]
    exact ⟨.bool false, Refusal.isFit_toJson (h refusal rfl), nofun⟩
  | unknownTool name =>
    have herror : (unknownToolError name).IsFit := by
      refine Json.isFit_ofMembers (by decide : ["code", "message"].Nodup) rfl ?_
      simp only [List.forall_mem_cons]
      exact ⟨.string _, .string _, nofun⟩
    refine Json.isFit_ofMembers (by decide : ["success", "error"].Nodup) rfl ?_
    simp only [List.forall_mem_cons]
    exact ⟨.bool false, herror, nofun⟩

/-- An answer is finite unless it refuses a number that is not. -/
theorem isFinite_toJson (reply : Reply) :
    reply.toJson.isFinite = true ↔ ∀ refusal x, reply = .refused refusal →
      refusal.value = .real x → x.isFinite = true := by
  cases reply with
  | done result => exact iff_of_true result.isFinite_toJson nofun
  | refused refusal =>
    have herror : (toJson (.refused refusal)).isFinite = true ↔ refusal.toJson.isFinite = true := by
      rw [toJson, Json.isFinite_ofMembers]
      simp only [List.forall_mem_cons]
      exact ⟨fun h => h.2.1, fun h => ⟨rfl, h, nofun⟩⟩
    rw [herror, Refusal.isFinite_toJson]
    refine ⟨?_, fun h x hx => h refusal x rfl hx⟩
    rintro h _ x ⟨⟩ hx
    exact h x hx
  | unknownTool name => exact iff_of_true rfl nofun

end Reply

/-! ### Calls -/

namespace Query

/-- A value that is not accepted is refused as it is. -/
theorem value_of_accept_eq_error {limit : Int} {value : Json} {refusal : Refusal}
    (h : accept limit value = .error refusal) : refusal.value = value := by
  unfold accept at h
  split at h
  · split_ifs at h <;>
      · cases h
        rfl
  · cases h
    rfl

end Query

namespace Tool

theorem of_map_eq_error {α β ε : Type} {result : Except ε α} {f : α → β} {error : ε}
    (h : result.map f = .error error) : result = .error error := by
  cases result with
  | error other =>
    cases h
    rfl
  | ok value => cases h

/-- What a tool refuses is one of its arguments, or null where none is given. -/
theorem value_of_run_eq_error {limit : Int} {arguments : Json.Members} {tool : Tool}
    {refusal : Refusal} (h : tool.run limit arguments = .error refusal) :
    refusal.value = .null ∨ ∃ key, arguments.get? key = some refusal.value := by
  have hquery : Query.accept limit ((arguments.get? "query").getD .null) = .error refusal →
      refusal.value = .null ∨ ∃ key, arguments.get? key = some refusal.value := by
    intro haccept
    rw [Query.value_of_accept_eq_error haccept]
    cases hget : arguments.get? "query" with
    | none => exact Or.inl rfl
    | some value => exact Or.inr ⟨_, hget⟩
  cases tool with
  | compileQuery =>
    rw [run] at h
    exact hquery (of_map_eq_error (of_map_eq_error h))
  | extractTerms =>
    rw [run] at h
    exact hquery (of_map_eq_error (of_map_eq_error h))
  | extractCompiledTerms =>
    rw [run] at h
    have haccept := of_map_eq_error h
    cases hget : arguments.get? "compiled_query" with
    | none =>
      rw [hget] at haccept
      cases haccept
    | some value =>
      rw [hget] at haccept
      cases value with
      | string text => cases haccept
      | _ =>
        cases haccept
        exact Or.inr ⟨_, hget⟩

end Tool

/-! ### Servers -/

namespace Server

/-- What a server refuses is an argument of the call, or null where none is given. -/
theorem value_of_call_eq_refused {server : Server} {name : Text} {arguments : Json.Members}
    {refusal : Refusal} (h : (server.call name arguments).1 = .refused refusal) :
    refusal.value = .null ∨ ∃ key, arguments.get? key = some refusal.value := by
  unfold Server.call Tool.call at h
  split at h
  · cases h
  · split at h
    · cases h
    · next hrun =>
      cases h
      exact Tool.value_of_run_eq_error hrun

/-- The arguments of a call: an object that is read from a text of JSON, or none. -/
inductive AreArguments : Json.Members → Prop
  | none : AreArguments []
  | object {text : Text} {arguments : Json.Members} (h : Json.read text = .ok (.object arguments)) :
    AreArguments arguments

theorem AreArguments.hasFitNumbers {arguments : Json.Members} (h : AreArguments arguments)
    {key : Text} {value : Json} (hget : arguments.get? key = some value) : value.HasFitNumbers := by
  cases h with
  | none => cases hget
  | object h =>
    cases Json.hasFitNumbers_read h with
    | object hvalues =>
      obtain ⟨before, after, rfl, -⟩ := List.lookup_eq_some_iff.1 hget
      exact hvalues (key, value) (List.mem_append_right _ List.mem_cons_self)

/-- The answer to a call can be written. -/
theorem isFit_call (server : Server) (name : Text) {arguments : Json.Members}
    (harguments : AreArguments arguments) : (server.call name arguments).1.toJson.IsFit := by
  refine Reply.isFit_toJson fun refusal hrefused => ?_
  rcases value_of_call_eq_refused hrefused with hnull | ⟨key, hget⟩
  · rw [hnull]
    exact .null
  · exact harguments.hasFitNumbers hget

/-- Every call is answered with a text that reads back as the answer with the halves of surrogate
pairs put together, so as the answer itself exactly if none of its texts has two neighbours that are
such a pair, and that the standard allows exactly if no number is echoed that is not finite. -/
theorem call_toText (server : Server) (name : Text) {arguments : Json.Members}
    (harguments : AreArguments arguments) :
    Json.read (server.call name arguments).1.toText =
        .ok (server.call name arguments).1.toJson.paired ∧
      (Json.read (server.call name arguments).1.toText =
          .ok (server.call name arguments).1.toJson ↔
        ∀ text ∈ (server.call name arguments).1.toJson.texts, text.IsPaired) ∧
      (Json.IsStandard (server.call name arguments).1.toText ↔
        ∀ refusal x, (server.call name arguments).1 = .refused refusal →
          refusal.value = .real x → x.isFinite = true) := by
  have hfit := isFit_call server name harguments
  have hread := Json.read_write hfit
  refine ⟨hread, ?_, ?_⟩
  · rw [Reply.toText, hread, Except.ok.injEq, Json.paired_eq_self]
  · rw [Reply.toText, Json.isStandard_write hfit, Reply.isFinite_toJson]

/-- Arguments with a numeral that is too great for a floating-point number. -/
theorem areArguments_infinite : AreArguments [("query", .real (.infinite false))] := by
  have hread : Json.read "\x7b\"query\": 1e400\x7d" =
      .ok (.object [("query", .real (.infinite false))]) := by cbv
  exact .object hread

/-- The answer to a call with such arguments reads back, but is no text that the standard allows. -/
theorem call_toText_of_infinite :
    AreArguments [("query", .real (.infinite false))] ∧
      Json.read ((⟨.default⟩ : Server).call "compile_search_query"
          [("query", .real (.infinite false))]).1.toText =
        .ok ((⟨.default⟩ : Server).call "compile_search_query"
          [("query", .real (.infinite false))]).1.toJson.paired ∧
      ¬Json.IsStandard ((⟨.default⟩ : Server).call "compile_search_query"
          [("query", .real (.infinite false))]).1.toText := by
  obtain ⟨hread, -, hstandard⟩ :=
    call_toText ⟨.default⟩ "compile_search_query" areArguments_infinite
  refine ⟨areArguments_infinite, hread, fun h => ?_⟩
  exact absurd (hstandard.1 h _ _ rfl rfl) (by decide)

/-- Not every call is answered with a text that the standard allows. -/
theorem not_forall_isStandard :
    ¬∀ (server : Server) (name : Text) {arguments : Json.Members}, AreArguments arguments →
      Json.IsStandard (server.call name arguments).1.toText ∧
        Json.read (server.call name arguments).1.toText =
          .ok (server.call name arguments).1.toJson := by
  intro h
  have hstandard := (h ⟨.default⟩ "compile_search_query" areArguments_infinite).1
  rw [Reply.toText, Json.isStandard_write (isFit_call _ _ areArguments_infinite),
    Reply.isFinite_toJson] at hstandard
  exact absurd (hstandard _ _ rfl rfl) (by decide)

end Server

end TsQuery
