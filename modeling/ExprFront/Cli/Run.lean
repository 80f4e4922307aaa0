import ExprFront.Cli.Arguments
import ExprFront.Cli.Folder
import ExprFront.Program
import ExprFront.Text.Utf8
import ExprFront.Tree.Json
import ExprFront.Tree.Outline

/-!
# Running the program

A run scans and parses one program and prints its tokens, its tree or what is wrong with it. The
status is 0 for success and 1 for a fault of the program or its file; it is 2 only where a position
has no decimal text within the limit or an integer that is needed is missing. Two faults of a file
escape the run: bytes that are no text, and a null character in its name.
-/

namespace ExprFront.Cli

/-- What is read when neither a program nor a file is given. -/
def exampleProgram : String :=
  "5 + 5 * 10 / $a > a($b = if (true) 13 else \x7b $c = 10; $c \x7d)"

/-- A fault that ends the program without a status. -/
inductive Escape where
  | undecodable (fault : Utf8.Fault)
  | nullInName
  deriving DecidableEq

/-- What a call comes to: lines printed and lines logged with a status, an internal error that
leaves only what was printed, an exit before anything is run, or an escaped fault. -/
inductive Outcome where
  | finished (status : Nat) (printed logged : List String)
  | failed (printed : List String)
  | exited (status : Nat) (printed logged : List String)
  | escaped (fault : Escape)
  deriving DecidableEq

/-- An internal error after some lines have been printed. -/
def internalError (printed : List String) (message : String) : Outcome :=
  .failed (printed ++ ["", s!"[ExprLang] Internal Error: {message}"])

/-! ## A run -/

/-- Lines logged, if logging is asked for. -/
def log (settings : Settings) (lines : List String) : List String :=
  if settings.verbose then lines else []

/-- Prints the errors of a text that has some. -/
def reportErrors (settings : Settings) (logged : List String) (errors : List LexError) : Outcome :=
  .finished 1
    (errors.map LexError.message
      ++ [s!"[ExprLang] {errors.length} lexical error(s), nothing parsed."])
    (log settings logged)

/-- Prints the tokens of a text, up to the first whose position has no text. -/
def listTokens (settings : Settings) (logged : List String) (tokens : List Token) : Outcome :=
  let printed := (tokens.takeWhile fun t => t.position.isWritable).map Token.display
  if tokens.all fun t => t.position.isWritable then .finished 0 printed (log settings logged)
  else internalError printed Numeral.unwritableMessage

/-- The text of a tree. -/
def renderTree (settings : Settings) (tree : Node) : String :=
  if settings.json then tree.toJson.indented 0 else tree.outlineText Outline.defaultIndent

/-- The message for a column that a missing tab size is added to. -/
def noTabSizeMessage : String :=
  "unsupported operand type(s) for +=: 'int' and 'list'"

/-- The message for a missing limit that a depth is compared with. -/
def noMaxDepthMessage : String :=
  "'>' not supported between instances of 'int' and 'list'"

/-- Scans a text with the tab size asked for. If it is missing, the scan gets as far as the first tab. -/
def scanWith (tabSize : Option Int) (text : List Char) : Except String (List ScanItem) :=
  match tabSize with
  | some tabSize => (scan tabSize text).mapError Unreadable.message
  | none =>
    match scan Scanner.defaultTabSize (text.takeWhile (· ≠ '\t')) with
    | .error u => .error u.message
    | .ok items => if '\t' ∈ text then .error noTabSizeMessage else .ok items

/-- Parses tokens and prints the tree or the error. If the limit of nesting is missing, parsing gets
as far as the first token. -/
def printTree (settings : Settings) (logged : List String) (tokens : List Token) : Outcome :=
  let logged := logged ++ [s!"DEBUG exprlang.main: parsing {tokens.length} token(s)"]
  if settings.maxDepth = none ∧ tokens ≠ [] then internalError [] noMaxDepthMessage
  else
    match parseTokens (settings.maxDepth.getD defaultMaxDepth) tokens with
    | .error (.error e) => .finished 1 [e.message] (log settings logged)
    | .error .unwritable => internalError [] Numeral.unwritableMessage
    | .ok tree =>
      .finished 0 [renderTree settings tree]
        (log settings (logged ++ [s!"DEBUG exprlang.parser: parsed {tokens.length} token(s)"]))

/-- Scans and parses one program. -/
def run (settings : Settings) (text : List Char) : Outcome :=
  match scanWith settings.tabSize text with
  | .error message => internalError [] message
  | .ok items =>
    let logged :=
      [s!"DEBUG exprlang.lexer: scanned {items.length} item(s) from {text.length} character(s)"]
    match tokensOf items with
    | .error (.unreadable u) => internalError [] u.message
    | .error (.lexical errors) => reportErrors settings logged errors
    | .ok tokens =>
      if settings.tokens then listTokens settings logged tokens
      else printTree settings logged tokens

/-! ## A call -/

/-- Where the program of a run comes from. -/
inductive Source where
  | text (text : String)
  | file (name : String)
  deriving DecidableEq

/-- A program given on the command line comes before a file, and without either there is an
example. -/
def Settings.source (settings : Settings) : Source :=
  match settings.expr, settings.file with
  | some text, _ => .text text
  | none, some name => if name = "" then .text exampleProgram else .file name
  | none, none => .text exampleProgram

/-- Runs the program in a file whose bytes were looked up. -/
def runFile (settings : Settings) (name : String) (found : Except FileFault (List UInt8)) :
    Outcome :=
  match found with
  | .error fault => .finished 1 [s!"[ExprLang] Cannot read {name}: {fault.message}"] []
  | .ok bytes =>
    match Utf8.decode bytes with
    | .error fault => .escaped (.undecodable fault)
    | .ok text => run settings (Utf8.unifyNewlines text)

/-- Answers a command line under a rule for attached separators, `read` giving the bytes of a file. -/
def answerUnder (rule : SeparatorRule) (arguments : List String)
    (read : String → Except FileFault (List UInt8)) : Outcome :=
  match requestUnder rule arguments with
  | .help => .exited 0 help []
  | .version => .exited 0 [versionLine] []
  | .invalid message => .exited 2 [] (usage ++ [s!"{programName}: error: {message}"])
  | .run settings =>
    match settings.source with
    | .text text => run settings text.toList
    | .file name =>
      if name.contains '\x00' then .escaped .nullInName else runFile settings name (read name)

/-- Answers a command line where attached separators are dropped. -/
def answer (arguments : List String) (read : String → Except FileFault (List UInt8)) : Outcome :=
  answerUnder .dropped arguments read

end ExprFront.Cli
