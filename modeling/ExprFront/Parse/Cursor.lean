import ExprFront.Parse.Error
import ExprFront.Parse.Vocabulary

/-!
# Moving over tokens

A cursor stands between the tokens it has passed and those ahead, and counts the primary
expressions that are open. A parse step moves the cursor and may fail; a failure leaves the cursor
where it came about.
-/

namespace ExprFront

/-- A place in a row of tokens: those passed, the latest first, those ahead, and the number of
open primary expressions. -/
structure Cursor where
  passed : List Token
  ahead : List Token
  depth : Nat
  deriving DecidableEq

namespace Cursor

/-- A cursor before the first token. -/
def ofTokens (tokens : List Token) : Cursor :=
  { passed := [], ahead := tokens, depth := 0 }

/-- The number of tokens passed. -/
def index (c : Cursor) : Nat :=
  c.passed.length

/-- All tokens, wherever the cursor stands. -/
def tokens (c : Cursor) : List Token :=
  c.passed.reverse ++ c.ahead

/-- The token ahead. -/
def current? (c : Cursor) : Option Token :=
  c.ahead.head?

/-- Is the token ahead of one of the kinds? -/
def check (c : Cursor) (kinds : List TokenKind) : Bool :=
  c.current?.any fun t => kinds.contains t.kind

/-- The last of all tokens. -/
def last? (c : Cursor) : Option Token :=
  c.ahead.getLast?.or c.passed.head?

/-- The position just behind the last token, whose text lies on one line. -/
def endPosition (c : Cursor) : Position :=
  match c.last? with
  | some t => ⟨t.position.line, t.position.column + (t.stop - t.start)⟩
  | none => .first

/-- The error that the tokens end where one of the kinds is needed. -/
def endError (c : Cursor) (expected : List TokenKind) : ParseError :=
  .unexpectedEnd c.endPosition expected

/-- How many more primary expressions may be opened. -/
def room (maxDepth : Int) (c : Cursor) : Nat :=
  (maxDepth - c.depth).toNat

end Cursor

/-- A step that moves a cursor and may fail. -/
abbrev Parse := EStateM ParseError Cursor

namespace Parse

/-- Passes over the token ahead; without one, the given kinds are what was expected. -/
def advance (expected : List TokenKind) : Parse Token := fun c =>
  match c.ahead with
  | [] => .error (c.endError expected) c
  | t :: rest => .ok t { c with passed := t :: c.passed, ahead := rest }

/-- Passes over the token ahead if it has a meaning, and gives the meaning. -/
def acceptAs {α : Type} (meaning : Token → Option α) : Parse (Option α) := fun c =>
  match c.ahead with
  | [] => .ok none c
  | t :: rest =>
    match meaning t with
    | none => .ok none c
    | some a => .ok (some a) { c with passed := t :: c.passed, ahead := rest }

/-- Passes over the token ahead if it is of one of the kinds. -/
def accept (kinds : List TokenKind) : Parse (Option Token) :=
  acceptAs fun t => if kinds.contains t.kind then some t else none

/-- Passes over the token ahead, which has to be of the kind. -/
def expect (kind : TokenKind) : Parse Token := do
  let t ← advance [kind]
  if t.kind = kind then pure t else throw (.unexpectedToken t [kind])

/-- Runs a step with one more primary expression open, and closes it however the step ends. -/
def nested {α : Type} (step : Parse α) : Parse α := fun c =>
  match step { c with depth := c.depth + 1 } with
  | .ok a c => .ok a { c with depth := c.depth - 1 }
  | .error e c => .error e { c with depth := c.depth - 1 }

/-- Runs a step with a bound on its rounds: one for each token ahead. -/
def bounded {α : Type} (step : List Token → Parse α) : Parse α := fun c =>
  step c.ahead c

/-- A step as a caller meets it. No step goes on behind an error, and what `nested` closes it closes
behind any failure, so the errors of a whole step are raised like those of its parts. -/
def raising {α : Type} (step : Parse α) : EStateM ParseFailure Cursor α := fun c =>
  match step c with
  | .ok a c => .ok a c
  | .error e c => .error e.raised c

end Parse

end ExprFront
