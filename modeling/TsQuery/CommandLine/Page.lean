/-!
# Usage and help

Each command has a page of help, which begins with the line or lines on its usage. Lines are at most
78 characters long.
-/

namespace TsQuery

namespace CommandLine

/-- The pages of help: of the program and of each command. -/
inductive Page
  | main
  | compile
  | terms
  | config
  | serve
  deriving DecidableEq

namespace Page

/-- The words with which the command of a page is called. -/
def program : Page → String
  | main => "tsquery-compiler"
  | compile => "tsquery-compiler compile"
  | terms => "tsquery-compiler terms"
  | config => "tsquery-compiler config"
  | serve => "tsquery-compiler serve"

/-- The usage of a command. -/
def usage : Page → String
  | main =>
    "usage: tsquery-compiler [-h] [--config-dir CONFIG_DIR] [--verbose]\n" ++
    "                        \x7bcompile,terms,config,serve\x7d ...\n"
  | compile =>
    "usage: tsquery-compiler compile [-h] [--max-length MAX_LENGTH] [--json] query\n"
  | terms => "usage: tsquery-compiler terms [-h] [--max-length MAX_LENGTH] query\n"
  | config =>
    "usage: tsquery-compiler config [-h]\n" ++
    "                               [--show | --set KEY VALUE | --validate | --reset]\n"
  | serve => "usage: tsquery-compiler serve [-h]\n"

/-- What follows the usage on a page. -/
def details : Page → String
  | main =>
    "\nCompile free-text search queries into PostgreSQL tsquery syntax\n" ++
    "\npositional arguments:\n" ++
    "  \x7bcompile,terms,config,serve\x7d\n" ++
    "                        Available commands\n" ++
    "    compile             Compile a query and print the tsquery text\n" ++
    "    terms               Print the include and exclude terms of a query as JSON\n" ++
    "    config              View or modify the stored configuration\n" ++
    "    serve               Run the MCP server over stdio\n" ++
    "\noptions:\n" ++
    "  -h, --help            show this help message and exit\n" ++
    "  --config-dir CONFIG_DIR\n" ++
    "                        Directory holding\n" ++
    "                        .tsquery_compiler/compiler_config.json (defaults to\n" ++
    "                        cwd)\n" ++
    "  --verbose, -v         Log each pipeline stage\n"
  | compile =>
    "\npositional arguments:\n" ++
    "  query                 Search query as typed by the user\n" ++
    "\noptions:\n" ++
    "  -h, --help            show this help message and exit\n" ++
    "  --max-length MAX_LENGTH\n" ++
    "                        Override the maximum query length\n" ++
    "  --json                Print compiled text and terms as JSON\n"
  | terms =>
    "\npositional arguments:\n" ++
    "  query                 Search query as typed by the user\n" ++
    "\noptions:\n" ++
    "  -h, --help            show this help message and exit\n" ++
    "  --max-length MAX_LENGTH\n" ++
    "                        Override the maximum query length\n"
  | config =>
    "\noptions:\n" ++
    "  -h, --help       show this help message and exit\n" ++
    "  --show           Show the effective configuration (default)\n" ++
    "  --set KEY VALUE  Set a stored configuration value (e.g., --set\n" ++
    "                   max_query_length 500)\n" ++
    "  --validate       Check the stored file and environment overrides\n" ++
    "  --reset          Remove the stored configuration file\n"
  | serve =>
    "\noptions:\n" ++
    "  -h, --help  show this help message and exit\n"

/-- A page of help. -/
def help (page : Page) : String :=
  page.usage ++ page.details

end Page

end CommandLine

end TsQuery
