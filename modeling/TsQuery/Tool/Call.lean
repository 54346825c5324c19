import TsQuery.Json.Write
import TsQuery.Query.Compile
import TsQuery.Query.Listing
import TsQuery.Tool.Basic

/-!
# Tool calls

A call names a tool and gives arguments by name. It is always answered: with the result, with the
refusal of its argument, which is put on record too, or with the complaint that there is no such
tool. A query that is not given is refused like a null; a compiled query that is not given is empty.
-/

namespace TsQuery

/-- The result of a call that is carried out. -/
inductive ToolResult
  | compiled (query : Compiled)
  | vocabulary (words : Vocabulary)
  | terms (words : List Text)

/-- The answer to a call. -/
inductive Reply
  | done (result : ToolResult)
  | refused (refusal : Refusal)
  | unknownTool (name : Text)

/-- A result as members of a JSON object. -/
def ToolResult.toMembers : ToolResult → List (String × Json)
  | compiled query => query.toMembers
  | vocabulary words => words.toMembers
  | terms words => [("terms", .ofTexts words)]

namespace Reply

/-- The complaint about a tool that does not exist. -/
def unknownToolError (name : Text) : Json :=
  .ofMembers [("code", .ofString "UNKNOWN_TOOL"),
    ("message", .string ("Unknown tool: " ++ name))]

/-- An answer as a JSON object, which first tells whether the call was carried out. -/
def toJson : Reply → Json
  | done result => .ofMembers (("success", .bool true) :: result.toMembers)
  | refused refusal => .ofMembers [("success", .bool false), ("error", refusal.toJson)]
  | unknownTool name => .ofMembers [("success", .bool false), ("error", unknownToolError name)]

/-- An answer as it is sent. -/
def toText (reply : Reply) : Text :=
  reply.toJson.write

end Reply

namespace Tool

/-- The text of a value that is accepted as a compiled query. -/
def acceptCompiled : Json → Except Refusal Text
  | .string text => .ok text
  | value => .error ⟨value, .compiledNotText⟩

/-- Runs a tool on arguments, queries having at most `limit` characters. -/
def run (limit : Int) (arguments : Json.Members) : Tool → Except Refusal ToolResult
  | compileQuery =>
    (Query.compile limit ((arguments.get? "query").getD .null)).map .compiled
  | extractTerms =>
    (Query.extractTerms limit ((arguments.get? "query").getD .null)).map .vocabulary
  | extractCompiledTerms =>
    (acceptCompiled ((arguments.get? "compiled_query").getD (.string []))).map fun text =>
      .terms (Listing.terms text)

/-- The record of a call whose argument was refused. -/
def refusalRecord (tool : Tool) (refusal : Refusal) : LogRecord :=
  ⟨.info, s!"Rejected {tool.name} call: {refusal.message}"⟩

/-- Answers a call. -/
def call (limit : Int) (name : Text) (arguments : Json.Members) : Reply × Log :=
  match ofName? name with
  | none => (.unknownTool name, [])
  | some tool =>
    match tool.run limit arguments with
    | .ok result => (.done result, [])
    | .error refusal => (.refused refusal, [tool.refusalRecord refusal])

end Tool

end TsQuery
