import ExprFront.Parse.Grammar
import ExprFront.Scan.Items

/-!
# From text to tree

A program is scanned and then parsed. Where scanning finds errors, nothing is parsed.
-/

namespace ExprFront

/-- Why a text is no program. -/
inductive ProgramError where
  | scanning (failure : ScanFailure)
  | parsing (error : ParseError)
  deriving DecidableEq

/-- The tree of a text, with the usual width of tabs and limit of nesting. -/
def parseText (text : List Char) : Except ProgramError Node :=
  match tokenize Scanner.defaultTabSize text with
  | .error failure => .error (.scanning failure)
  | .ok tokens =>
    match parse defaultMaxDepth tokens with
    | .error e => .error (.parsing e)
    | .ok tree => .ok tree

end ExprFront
