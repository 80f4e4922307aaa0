import ExprFront.Number.Numeral
import ExprFront.Scan.Error
import ExprFront.Text.Letter
import ExprFront.Token.Basic

/-!
# The scanner

A scanner is a place in a text together with the place where the current token began. Each
operation passes over some of the characters ahead, and every place it remembers is the one that
counting from the beginning would give. Tokens are as long as the characters ahead allow; the
decision needs one character of lookahead, and two at the point of a fraction. The text may be of
characters or of code points.
-/

namespace ExprFront

section

variable {α : Type} [TextUnit α]

/-- An offset in a text and the position there. -/
structure Place where
  offset : Nat
  position : Position
  deriving DecidableEq

namespace Place

/-- The beginning of a text. -/
def first : Place := ⟨0, .first⟩

/-- The place behind a text that begins at a place. -/
def after (tabSize : Int) (p : Place) (text : List α) : Place :=
  ⟨p.offset + text.length, p.position.afterAll tabSize (faces text)⟩

@[simp] theorem after_nil (tabSize : Int) (p : Place) : p.after tabSize ([] : List α) = p := by
  simp [after]

@[simp] theorem after_append (tabSize : Int) (p : Place) (s t : List α) :
    p.after tabSize (s ++ t) = (p.after tabSize s).after tabSize t := by
  simp [after, Nat.add_assoc]

end Place

/-- A scanner at work: where the current token began, where the scanner stands, the characters in
between with the latest first, and those ahead. -/
structure Scanner (α : Type := Char) where
  tabSize : Int
  start : Place
  here : Place
  passed : List α
  ahead : List α
  deriving DecidableEq

namespace Scanner

/-- The columns a tab is wide if nothing else is asked for. -/
def defaultTabSize : Int := 4

/-- A scanner at the beginning of a text. -/
def ofText (tabSize : Int) (text : List α) : Scanner α :=
  { tabSize, start := .first, here := .first, passed := [], ahead := text }

/-- Is nothing ahead? -/
def atEnd (s : Scanner α) : Bool :=
  s.ahead.isEmpty

/-- The character ahead; the end of the text shows as the null character. -/
def current (s : Scanner α) : Char :=
  (faces s.ahead).headD '\x00'

/-- The text from the beginning of the current token. -/
def lexeme (s : Scanner α) : List Char :=
  faces s.passed.reverse

/-! ## Moving -/

/-- Passes over a text, leaving the given one ahead. -/
def pass (s : Scanner α) (text rest : List α) : Scanner α :=
  { s with here := s.here.after s.tabSize text, passed := text.reverse ++ s.passed, ahead := rest }

/-- Passes over the characters ahead up to the first one outside the class. -/
def passWhile (p : Char → Bool) (s : Scanner α) : Scanner α :=
  s.pass (s.ahead.takeWhile (p ∘ face)) (s.ahead.dropWhile (p ∘ face))

/-- Begins a token here. -/
def begin (s : Scanner α) : Scanner α :=
  { s with start := s.here, passed := [] }

/-- Passes over the blanks ahead. -/
def skipBlanks (s : Scanner α) : Scanner α :=
  s.passWhile isBlank

@[simp] theorem lexeme_pass (s : Scanner α) (text rest : List α) :
    (s.pass text rest).lexeme = s.lexeme ++ faces text := by
  simp [lexeme, pass]

@[simp] theorem lexeme_begin (s : Scanner α) : s.begin.lexeme = [] := faces_nil

/-! ## Results -/

/-- A token of the text from the beginning of the current token. -/
def token (s : Scanner α) (kind : TokenKind) (payload : Payload) : Token :=
  { kind, payload, position := s.start.position, start := s.start.offset, stop := s.here.offset,
    span := String.ofList s.lexeme }

/-- An error at the beginning of the current token. -/
def error (s : Scanner α) (kind : LexErrorKind) (shown : Option Shown) : LexError :=
  { kind, position := s.start.position, shown }

/-- Passes over one character; at the end of the text this is an error that changes nothing. -/
def advance (s : Scanner α) : Except ScanFault α × Scanner α :=
  match s.ahead with
  | [] => (.error (s.error .unexpectedEnd none).raised, s)
  | u :: rest => (.ok u, s.pass [u] rest)

/-! ## Tokens -/

/-- Passes over digits, and over a point with the digits after it if there are any. -/
def passDecimal (s : Scanner α) : Scanner α :=
  let s := s.passWhile isDigit
  match s.ahead with
  | u :: d :: rest =>
    if face u = '.' ∧ isDigit (face d) then (s.pass [u] (d :: rest)).passWhile isDigit else s
  | _ => s

/-- Reads on from within a number. -/
def readNumber (s : Scanner α) : Except ScanFault Token × Scanner α :=
  let s := s.passDecimal
  match Numeral.number? s.lexeme with
  | some value => (.ok (s.token .number (.number value)), s)
  | none => (.error (.unreadable (.number (String.ofList s.lexeme))), s)

/-- Can the character stand within a name? -/
def isNamePart (c : Char) : Bool :=
  isNameStart c || isDigit c

/-- Reads on from within a word, which is a name unless it is a keyword. -/
def readWord (s : Scanner α) : Token × Scanner α :=
  let s := s.passWhile isNamePart
  match TokenKind.ofKeyword? s.lexeme with
  | some kind => (s.token kind .absent, s)
  | none => (s.token .identifier (.text (String.ofList s.lexeme)), s)

/-- Reads on behind a sign, which an equals sign doubles up. -/
def readSign (s : Scanner α) (alone doubled : TokenKind) : Token × Scanner α :=
  match s.ahead with
  | u :: rest =>
    if face u = '=' then
      let s := s.pass [u] rest
      (s.token doubled .absent, s)
    else (s.token alone .absent, s)
  | [] => (s.token alone .absent, s)

/-- Reads on behind the first character of a token. -/
def readAfter (s : Scanner α) (u : α) : Except ScanFault Token × Scanner α :=
  match TokenKind.ofPunctuation? (face u) with
  | some kind => (.ok (s.token kind .absent), s)
  | none =>
    match TokenKind.ofSign? (face u) with
    | some (alone, doubled) =>
      let (t, s) := s.readSign alone doubled
      (.ok t, s)
    | none =>
      if isDigit (face u) then s.readNumber
      else if isNameStart (face u) then
        let (t, s) := s.readWord
        (.ok t, s)
      else (.error (s.error .unexpectedCharacter (TextUnit.shown u)).raised, s)

/-- Scans one token. A character that begins none is passed over and reported. -/
def scanToken (s : Scanner α) : Except ScanFault Token × Scanner α :=
  match s.begin.advance with
  | (.ok u, s) => s.readAfter u
  | (.error fault, s) => (.error fault, s)

end Scanner

end

end ExprFront
