import ExprFront.Number.Format
import ExprFront.Position
import ExprFront.Text.Quoted
import ExprFront.Token.Kind

/-!
# Tokens

A token is a kind with a payload, and it remembers where it was found. Two tokens are the same
when kind and payload agree, wherever they stand.
-/

namespace ExprFront

/-- What a token carries besides its kind: nothing, a name or a number. -/
inductive Payload where
  | absent
  | text (value : String)
  | number (value : Binary64)
  deriving DecidableEq, Inhabited

namespace Payload

/-- Equality of payloads, with the numeric one on numbers. -/
def equals : Payload → Payload → Bool
  | .absent, .absent => true
  | .text s, .text t => s == t
  | .number x, .number y => x.equals y
  | _, _ => false

/-- A payload as it is shown in messages and trees. -/
def display : Payload → String
  | .absent => "None"
  | .text value => quoted value
  | .number value => value.text

end Payload

/-- A token, with the offsets of its first character and behind its last one, and its text. -/
structure Token where
  kind : TokenKind
  payload : Payload
  position : Position
  start : Int
  stop : Int
  span : String
  deriving DecidableEq

namespace Token

/-- Equality of tokens, which ignores where they stand. -/
def equals (s t : Token) : Bool :=
  s.kind == t.kind && s.payload.equals t.payload

/-- Equality of two rows of tokens. -/
def equalsAll (ss ts : List Token) : Bool :=
  ss.length == ts.length && (ss.zip ts).all fun (s, t) => s.equals t

/-- A token as it is listed. -/
def display (t : Token) : String :=
  s!"Token({t.kind.name}, {t.payload.display}, L{t.position.line}:C{t.position.column})"

/-! ## Tokens made by hand -/

/-- An offset made to fit a text of some length; a negative one counts from the end. -/
def clamp (length : Nat) (offset : Int) : Nat :=
  if offset < 0 then (offset + length).toNat else min offset.toNat length

/-- The part of a text between two offsets, empty when they are in the wrong order. -/
def slice (text : List Char) (start stop : Int) : List Char :=
  (text.take (clamp text.length stop)).drop (clamp text.length start)

/-- A token whose text is cut out of a buffer. -/
def cut (buffer : List Char) (kind : TokenKind) (payload : Payload) (position : Position)
    (start stop : Int) : Token :=
  { kind, payload, position, start, stop, span := String.ofList (slice buffer start stop) }

end Token

end ExprFront
