import ExprFront.Token.Basic

/-!
# Errors of parsing

Parsing stops at the first error: the tokens end, or one of them cannot stand where it does, or an
expression is nested more deeply than the caller allows. An error is worded when it is raised, and
where its position cannot be written the caller meets that instead.
-/

namespace ExprFront

/-- Why tokens could not be parsed. -/
inductive ParseError where
  | unexpectedEnd (position : Position) (expected : List TokenKind)
  | unexpectedToken (token : Token) (expected : List TokenKind)
  | nestingTooDeep (token : Token)
  deriving DecidableEq

/-- The names of the kinds in a set, in alphabetical order. -/
def TokenKind.names (kinds : List TokenKind) : List String :=
  (TokenKind.alphabetical.filter kinds.contains).map TokenKind.name

namespace ParseError

/-- The names of the kinds of errors, in the order of their declaration. -/
def kindNames : List String := ["UNEXPECTED_EOF", "UNEXPECTED_TOKEN", "NESTING_TOO_DEEP"]

/-- The name of an error's kind. -/
def kindName : ParseError → String
  | .unexpectedEnd _ _ => "UNEXPECTED_EOF"
  | .unexpectedToken _ _ => "UNEXPECTED_TOKEN"
  | .nestingTooDeep _ => "NESTING_TOO_DEEP"

/-- Where the error is reported. -/
def position : ParseError → Position
  | .unexpectedEnd p _ => p
  | .unexpectedToken t _ | .nestingTooDeep t => t.position

/-- The token at fault. -/
def token? : ParseError → Option Token
  | .unexpectedEnd _ _ => none
  | .unexpectedToken t _ | .nestingTooDeep t => some t

/-- The kinds of tokens that could have stood at the fault. -/
def expected : ParseError → List TokenKind
  | .unexpectedEnd _ kinds | .unexpectedToken _ kinds => kinds
  | .nestingTooDeep _ => []

/-- What is wrong. -/
def description (e : ParseError) : String :=
  let names := ", ".intercalate (TokenKind.names e.expected)
  match e with
  | .nestingTooDeep _ => "Expression nested too deeply"
  | .unexpectedEnd _ _ => s!"Unexpected end of input, expected one of: {names}"
  | .unexpectedToken t _ =>
    s!"Unexpected token {t.kind.name} ({quoted t.span}), expected one of: {names}"

/-- The wording of an error. -/
def message (e : ParseError) : String :=
  s!"[ExprLang L{e.position.line}:C{e.position.column}] Parse error: {e.description}"

end ParseError

/-- What a caller meets where parsing fails: an error, or in its place the failure to write the
position of one. -/
inductive ParseFailure where
  | error (error : ParseError)
  | unwritable
  deriving DecidableEq

namespace ParseError

/-- What comes of raising an error. -/
def raised (e : ParseError) : ParseFailure :=
  if e.position.isWritable then .error e else .unwritable

theorem raised_of_isWritable {e : ParseError} (h : e.position.isWritable = true) :
    e.raised = .error e :=
  if_pos h

theorem raised_eq_error_iff {e e' : ParseError} :
    e.raised = .error e' ↔ e = e' ∧ e.position.isWritable = true := by
  unfold raised
  split <;> simp_all

theorem raised_far {e : ParseError} {line : Int} (h : e.position = ⟨line, Position.farColumn⟩) :
    e.raised = .unwritable := by
  unfold raised
  rw [h, Position.isWritable_farColumn]
  rfl

end ParseError

end ExprFront
