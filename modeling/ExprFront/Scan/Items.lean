import ExprFront.Scan.Scanner

/-!
# Scanning a text

A whole text is scanned into a list of items, tokens and lexical errors in the order of the text,
unless an error comes up that cannot be worded. A text with lexical errors has no tokens to parse;
all its errors are reported together.
-/

namespace ExprFront

/-- One item of a scanned text. -/
inductive ScanItem where
  | token (token : Token)
  | error (error : LexError)
  deriving DecidableEq

namespace ScanItem

/-- The token of an item. -/
def token? : ScanItem → Option Token
  | .token t => some t
  | .error _ => none

/-- The lexical error of an item. -/
def error? : ScanItem → Option LexError
  | .token _ => none
  | .error e => some e

end ScanItem

/-- Why a text has no tokens: its lexical errors, or what has ended the scan. -/
inductive ScanFailure where
  | lexical (errors : List LexError)
  | unreadable (value : Unreadable)
  deriving DecidableEq

section

variable {α : Type} [TextUnit α]

namespace Scanner

/-- The result of a scan with one more item in front. -/
def withItem (item : ScanItem) : Except Unreadable (List ScanItem) × Scanner α →
    Except Unreadable (List ScanItem) × Scanner α
  | (items, s) => (items.map (item :: ·), s)

/-- Scans items until the text ends, in at most as many rounds as there are characters ahead. -/
def scanRounds : Nat → Scanner α → Except Unreadable (List ScanItem) × Scanner α
  | 0, s => (.ok [], s)
  | rounds + 1, s =>
    let s := s.skipBlanks
    if s.atEnd then (.ok [], s)
    else
      match s.scanToken with
      | (.ok t, s) => withItem (.token t) (scanRounds rounds s)
      | (.error (.lexical e), s) => withItem (.error e) (scanRounds rounds s)
      | (.error (.unreadable u), s) => (.error u, s)

/-- Scans all items ahead. Each round passes over a character, so there are enough of them. -/
def scan (s : Scanner α) : Except Unreadable (List ScanItem) × Scanner α :=
  s.scanRounds s.ahead.length

end Scanner

/-- The items of a text. -/
def scan (tabSize : Int) (text : List α) : Except Unreadable (List ScanItem) :=
  (Scanner.ofText tabSize text).scan.1

end

/-- The tokens of items without lexical errors. -/
def tokensOf (items : List ScanItem) : Except ScanFailure (List Token) :=
  match items.filterMap ScanItem.error? with
  | [] => .ok (items.filterMap ScanItem.token?)
  | errors => .error (.lexical errors)

/-- The tokens of a text without lexical errors. -/
def tokenize (tabSize : Int) (text : List Char) : Except ScanFailure (List Token) :=
  match scan tabSize text with
  | .ok items => tokensOf items
  | .error u => .error (.unreadable u)

end ExprFront
