import TsQuery.Json.Display

/-!
# Refused values

A query is refused when it is no text or the empty one, when it is blank, or when it is longer than
the limit, in this order. A refusal names the field, gives the reason in words, and echoes the value
that was refused: as it is if it is a text, a number, a truth value or null, and in its form for
messages otherwise.
-/

namespace TsQuery

/-- Why a value is refused as a query or as a compiled query. -/
inductive RefusalReason
  | notText
  | blank
  | tooLong (limit : Int)
  | compiledNotText
  deriving DecidableEq

/-- A value that is refused and the reason. -/
structure Refusal where
  value : Json
  reason : RefusalReason

namespace Refusal

/-- The field that was refused. -/
def field (refusal : Refusal) : String :=
  match refusal.reason with
  | .compiledNotText => "compiled_query"
  | _ => "query"

/-- The reason in words. -/
def message (refusal : Refusal) : String :=
  match refusal.reason with
  | .notText => "Query must be a non-empty string"
  | .blank => "Query cannot be empty"
  | .tooLong limit => s!"Query exceeds maximum length of {limit} characters"
  | .compiledNotText => "Compiled query must be a string"

/-- The value as it is echoed. -/
def echo : Json → Json
  | .array elements => .string (Json.array elements).display
  | .object members => .string (Json.object members).display
  | value => value

/-- A refusal as a JSON object. -/
def toJson (refusal : Refusal) : Json :=
  .ofMembers [("code", .ofString "VALIDATION_ERROR"), ("field", .ofString refusal.field),
    ("value", echo refusal.value), ("message", .ofString refusal.message)]

end Refusal

namespace Query

/-- The limit on the length of a query where none is set. -/
def defaultLimit : Int := 1000

/-- The text of a value that is accepted as a query of at most `limit` characters. -/
def accept (limit : Int) (value : Json) : Except Refusal Text :=
  match value with
  | .string text =>
    if text = [] then .error ⟨value, .notText⟩
    else if text.isAllBlank then .error ⟨value, .blank⟩
    else if limit < text.length then .error ⟨value, .tooLong limit⟩
    else .ok text
  | _ => .error ⟨value, .notText⟩

end Query

end TsQuery
