import ExprFront.Position
import ExprFront.Text.CodePoint

/-!
# Errors of scanning

A lexical error is a character that begins no token, or the end of the text where a token is
asked for; scanning records it and goes on. It is worded when it is raised, and where its position
cannot be written that ends the scan, as does a text that should be a number and is none.
-/

namespace ExprFront

/-- What is wrong with the text. -/
inductive LexErrorKind where
  | unexpectedEnd
  | unterminatedString
  | unexpectedCharacter
  deriving DecidableEq, Inhabited

namespace LexErrorKind

/-- All kinds, in the order of their declaration. -/
def all : List LexErrorKind := [.unexpectedEnd, .unterminatedString, .unexpectedCharacter]

/-- The name of a kind. -/
def name : LexErrorKind → String
  | .unexpectedEnd => "UNEXPECTED_EOF"
  | .unterminatedString => "UNTERMINATED_STRING"
  | .unexpectedCharacter => "UNEXPECTED_CHARACTER"

/-- The wording of a kind. -/
def wording : LexErrorKind → String
  | .unexpectedEnd => "Unexpected end of input"
  | .unterminatedString => "Unterminated string literal"
  | .unexpectedCharacter => "Unexpected character"

/-- The kind of a name. -/
def ofName? (name : String) : Option LexErrorKind :=
  all.find? (·.name == name)

end LexErrorKind

/-- A lexical error: its kind, where the token began, and what to show with it, if anything. -/
structure LexError where
  kind : LexErrorKind
  position : Position
  shown : Option Shown
  deriving DecidableEq

namespace LexError

/-- The wording of an error. -/
def message (e : LexError) : String :=
  let shown := match e.shown with
    | none => ""
    | some shown => s!": {shown.quoted}"
  s!"[ExprLang L{e.position.line}:C{e.position.column}] Lexer error: {e.kind.wording}{shown}"

/-- The wordings of several errors, one a line. -/
def messages (errors : List LexError) : String :=
  "\n".intercalate (errors.map message)

end LexError

/-- What cannot be read or written: a text that should be a number, or the position of an error. -/
inductive Unreadable where
  | number (text : String)
  | position
  deriving DecidableEq

/-- The wording for what cannot be read or written. -/
def Unreadable.message : Unreadable → String
  | .number text => s!"could not convert string to float: {quoted text}"
  | .position => Numeral.unwritableMessage

/-- Why no token could be scanned. -/
inductive ScanFault where
  | lexical (error : LexError)
  | unreadable (value : Unreadable)
  deriving DecidableEq

/-- What comes of raising a lexical error. -/
def LexError.raised (e : LexError) : ScanFault :=
  if e.position.isWritable then .lexical e else .unreadable .position

end ExprFront
