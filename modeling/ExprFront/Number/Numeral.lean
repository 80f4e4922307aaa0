import ExprFront.Number.Binary64
import ExprFront.Text.Blank
import ExprFront.Text.Digit

/-!
# Reading numerals

A numeral may be surrounded by white space and carry a sign, its digits may come from any script,
and single underscores may stand between digits. A number is a decimal with an optional fraction
and exponent, or one of the names for infinity and for the undefined value; an integer is digits
alone, and no more of them than `Numeral.digitLimit`.
-/

namespace ExprFront.Numeral

/-- The ASCII character that stands for a character within a numeral; outside white space and
digits there is none, and the character given is one that no numeral holds. -/
def plain (c : Char) : Char :=
  if c.toNat < 0x80 then c
  else if wideSpaces.holds c then ' '
  else match digitValue? c with
    | some value => digitChar value
    | none => '?'

/-- A text without the white space of ASCII around it. -/
def trim (text : List Char) : List Char :=
  ((text.dropWhile isAsciiSpace).reverse.dropWhile isAsciiSpace).reverse

/-- Removes the underscores, if each stands between two digits; `afterDigit` tells whether a digit
comes before the text. -/
def joinGroups (afterDigit : Bool) : List Char → Option (List Char)
  | [] => some []
  | c :: rest =>
    if c = '_' then
      if afterDigit && rest.head?.any isDigit then joinGroups false rest else none
    else (joinGroups (isDigit c) rest).map (c :: ·)

/-- The text in ASCII, trimmed and without its underscores. -/
def normal? (text : List Char) : Option (List Char) :=
  joinGroups false (trim (text.map plain))

/-- Whether a text begins with a minus sign, and what follows its sign. -/
def splitSign : List Char → Bool × List Char
  | '-' :: rest => (true, rest)
  | '+' :: rest => (false, rest)
  | text => (false, text)

/-- The number that a row of digits writes. -/
def digitsValue (digits : List Char) : Nat :=
  digits.foldl (fun value d => 10 * value + (d.toNat - '0'.toNat)) 0

/-- The exponent that ends a decimal; nothing stands for zero. -/
def exponent? : List Char → Option Int
  | [] => some 0
  | e :: rest =>
    let (negative, digits) := splitSign rest
    if (e = 'e' ∨ e = 'E') ∧ digits ≠ [] ∧ digits.all isDigit then
      let value : Int := digitsValue digits
      some (if negative then -value else value)
    else none

/-- The whole digits, the fraction digits and what follows them. -/
def splitFraction (text : List Char) : List Char × List Char × List Char :=
  let whole := text.takeWhile isDigit
  match text.dropWhile isDigit with
  | '.' :: rest => (whole, rest.takeWhile isDigit, rest.dropWhile isDigit)
  | rest => (whole, [], rest)

/-- The value of a decimal without a sign. -/
def decimal? (negative : Bool) (text : List Char) : Option Binary64 :=
  let (whole, fraction, rest) := splitFraction text
  if whole = [] ∧ fraction = [] then none
  else (exponent? rest).map fun exponent =>
    Binary64.ofDecimal negative (digitsValue (whole ++ fraction)) (exponent - fraction.length)

/-- The names of infinity. -/
def infinityNames : List (List Char) :=
  [['i', 'n', 'f'], ['i', 'n', 'f', 'i', 'n', 'i', 't', 'y']]

/-- The name of the undefined value. -/
def undefinedName : List Char := ['n', 'a', 'n']

/-- The number that a text writes. -/
def number? (text : List Char) : Option Binary64 := do
  let (negative, body) := splitSign (← normal? text)
  let word := body.map Char.toLower
  if infinityNames.contains word then some (.infinite negative)
  else if word = undefinedName then some .nan
  else decimal? negative body

/-- The longest row of digits that is read, or written, as an integer. -/
def digitLimit : Nat := 4300

/-- The integer that a text writes. -/
def integer? (text : List Char) : Option Int := do
  let (negative, digits) := splitSign (← normal? text)
  if digits ≠ [] ∧ digits.all isDigit ∧ digits.length ≤ digitLimit then
    let value : Int := digitsValue digits
    some (if negative then -value else value)
  else none

/-- Does the integer have a decimal text within the limit? -/
def isWritable (n : Int) : Bool :=
  n.natAbs < Nat.pow 10 digitLimit

/-- The wording for an integer without a decimal text. -/
def unwritableMessage : String :=
  s!"Exceeds the limit ({digitLimit} digits) for integer string conversion; "
    ++ "use sys.set_int_max_str_digits() to increase the limit"

/-- The wording for a text with more digits than are read. -/
def tooLongMessage (count : Nat) : String :=
  s!"Exceeds the limit ({digitLimit} digits) for integer string conversion: value has {count} "
    ++ "digits; use sys.set_int_max_str_digits() to increase the limit"

end ExprFront.Numeral
