import TsQuery.Json.Basic

/-!
# Tools

What the server offers to its clients: three tools, each with one argument that must be given and is
a string. A tool is listed with a description for the one who chooses it and a schema of its
arguments.
-/

namespace TsQuery

/-- A tool of the server. -/
inductive Tool
  | compileQuery
  | extractTerms
  | extractCompiledTerms
  deriving DecidableEq

namespace Tool

/-- The tools in the order in which they are listed. -/
def all : List Tool :=
  [compileQuery, extractTerms, extractCompiledTerms]

/-- The name by which a tool is called. -/
def name : Tool → String
  | compileQuery => "compile_search_query"
  | extractTerms => "extract_search_terms"
  | extractCompiledTerms => "extract_compiled_terms"

/-- The tool of a name. -/
def ofName? (name : Text) : Option Tool :=
  all.find? fun tool => tool.name == name

/-- How a query is written. -/
def queryHelp : String :=
  "Query Syntax:\n" ++
  "• Basic: Multiple words are ANDed together (e.g., \"memory consolidation\")\n" ++
  "• Phrases: Use quotes for exact phrases (e.g., '\"working memory\"')\n" ++
  "• Boolean: AND, OR, NOT in any case, or & | ! (e.g., \"cats OR dogs\", \"cats NOT dogs\")\n" ++
  "• Grouping: Parentheses group sub-expressions (e.g., \"(cats | dogs) & food\")\n" ++
  "• Other punctuation is ignored; C++, C# and F# are kept as cplusplus, csharp, fsharp\n\n" ++
  "Examples:\n" ++
  "- \"cats dogs\" -> cats & dogs\n" ++
  "- '\"hello world\"' -> ( hello <-> world )\n" ++
  "- \"a NOT b NOT c\" -> a & !b & !c"

/-- What a tool does, in words. -/
def description : Tool → String
  | compileQuery =>
    "Compile a free-text search query into PostgreSQL tsquery syntax. Returns the compiled " ++
    "query together with the lower-cased include and exclude terms used for highlighting.\n\n" ++
    queryHelp
  | extractTerms =>
    "Extract the include and exclude terms of a free-text search query without compiling it. " ++
    "Terms following NOT or ! are excluded; phrases are split into words."
  | extractCompiledTerms =>
    "List every term of an already compiled tsquery string, negated terms included. " ++
    "Use this when only the compiled query is available."

/-- The argument of a tool. -/
def argument : Tool → String
  | compileQuery | extractTerms => "query"
  | extractCompiledTerms => "compiled_query"

/-- What the argument of a tool is, in words. -/
def argumentDescription : Tool → String
  | compileQuery | extractTerms => "Search query as typed by the user"
  | extractCompiledTerms => "Compiled tsquery string"

/-- The schema of the arguments of a tool. -/
def argumentSchema (tool : Tool) : Json :=
  let string := Json.ofMembers
    [("type", .ofString "string"), ("description", .ofString tool.argumentDescription)]
  .ofMembers [("type", .ofString "object"), ("properties", .ofMembers [(tool.argument, string)]),
    ("required", .array [.ofString tool.argument])]

end Tool

end TsQuery
