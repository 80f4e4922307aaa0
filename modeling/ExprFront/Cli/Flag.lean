import ExprFront.Parse.Grammar
import ExprFront.Scan.Scanner

/-!
# Flags and settings

What the command line can ask for. A flag has a short spelling, a long one or both; some flags
take a value.
-/

namespace ExprFront.Cli

/-- A flag of the command line. -/
inductive Flag where
  | help
  | expr
  | tokens
  | json
  | tabSize
  | maxDepth
  | verbose
  | version
  deriving DecidableEq

namespace Flag

/-- Every spelling of a flag, in the order of their declaration. -/
def spellings : List (String × Flag) :=
  [("-h", .help), ("--help", .help), ("-e", .expr), ("--expr", .expr), ("--tokens", .tokens),
   ("--json", .json), ("--tab-size", .tabSize), ("--max-depth", .maxDepth), ("-v", .verbose),
   ("--verbose", .verbose), ("--version", .version)]

/-- The flag with a spelling. -/
def ofSpelling? (spelling : List Char) : Option Flag :=
  spellings.lookup (String.ofList spelling)

/-- The name of a flag in messages: its spellings with slashes between them. -/
def title (flag : Flag) : String :=
  "/".intercalate ((spellings.filter (·.2 = flag)).map (·.1))

/-- Does the flag take a value? -/
def takesValue : Flag → Bool
  | .expr | .tabSize | .maxDepth => true
  | _ => false

end Flag

/-- What a run of the program has to do. An integer is missing where its value has been dropped. -/
structure Settings where
  file : Option String
  expr : Option String
  tokens : Bool
  json : Bool
  tabSize : Option Int
  maxDepth : Option Int
  verbose : Bool
  deriving DecidableEq

/-- The settings when nothing is asked for. -/
def Settings.default : Settings where
  file := none
  expr := none
  tokens := false
  json := false
  tabSize := some Scanner.defaultTabSize
  maxDepth := some defaultMaxDepth
  verbose := false

end ExprFront.Cli
