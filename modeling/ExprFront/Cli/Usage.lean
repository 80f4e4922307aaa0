import ExprFront.Cli.Flag

/-!
# Usage

The texts that describe the command line, in lines of at most 80 columns.
-/

namespace ExprFront.Cli

/-- The name of the program. -/
def programName : String := "exprlang"

/-- The version of the program. -/
def version : String := "0.1.0"

/-- The line that answers a question for the version. -/
def versionLine : String := programName ++ " " ++ version

/-- How the program is called. -/
def usage : List String :=
  ["usage: exprlang [-h] [-e EXPR] [--tokens] [--json] [--tab-size TAB_SIZE]",
   "                [--max-depth MAX_DEPTH] [-v] [--version]",
   "                [file]"]

/-- What each part of a call means. -/
def help : List String :=
  usage ++
  ["",
   "Scan and parse an ExprLang program, then print its syntax tree.",
   "",
   "positional arguments:",
   "  file                  Source file to parse",
   "",
   "options:",
   "  -h, --help            show this help message and exit",
   "  -e EXPR, --expr EXPR  Parse SOURCE given on the command line",
   "  --tokens              Print the token stream instead of the tree",
   "  --json                Print the tree as JSON",
   "  --tab-size TAB_SIZE   Columns a tab advances (default: 4)",
   "  --max-depth MAX_DEPTH",
   "                        Deepest expression nesting accepted (default: 100)",
   "  -v, --verbose         Log debug output to stderr",
   "  --version             show program's version number and exit"]

end ExprFront.Cli
