import ExprFront.Number.Shortest

/-!
# The text of a number

The digits of a number come from its shortest decimal; a format decides how they are laid out.
Numbers of moderate size are written positionally with at least one fraction digit, the others with
a power of ten.
-/

namespace ExprFront

/-- How numbers are laid out. -/
structure NumberFormat where
  /-- The least exponent of a leading digit that is written positionally. -/
  least : Int
  /-- The greatest exponent of a leading digit that is written positionally. -/
  greatest : Int
  /-- The least number of digits in a power of ten. -/
  exponentWidth : Nat
  /-- The name of infinity, after a minus sign if negative. -/
  infinity : List Char
  /-- The name of the undefined value. -/
  undefined : List Char

namespace NumberFormat

/-- The format of messages and trees. -/
def plain : NumberFormat where
  least := -4
  greatest := 15
  exponentWidth := 2
  infinity := ['i', 'n', 'f']
  undefined := ['n', 'a', 'n']

/-- Digits with a point after the one of exponent zero; `exponent` is that of the first digit. -/
def positional (digits : List Char) (exponent : Int) : List Char :=
  if exponent < 0 then
    '0' :: '.' :: List.replicate (-exponent - 1).toNat '0' ++ digits
  else
    let wholeCount := exponent.toNat + 1
    let whole := digits.take wholeCount ++ List.replicate (wholeCount - digits.length) '0'
    let fraction := digits.drop wholeCount
    whole ++ '.' :: (if fraction = [] then ['0'] else fraction)

/-- Digits with a point after the first one, and the power of ten. -/
def scientific (width : Nat) (digits : List Char) (exponent : Int) : List Char :=
  let power := Nat.toDigits 10 exponent.natAbs
  let significand := match digits with
    | first :: second :: rest => first :: '.' :: second :: rest
    | _ => digits
  significand ++ 'e' :: (if exponent < 0 then '-' else '+')
    :: List.replicate (width - power.length) '0' ++ power

/-- Digits laid out positionally or with a power of ten, as the size asks. -/
def layout (format : NumberFormat) (digits : List Char) (exponent : Int) : List Char :=
  if format.least ≤ exponent ∧ exponent ≤ format.greatest then positional digits exponent
  else scientific format.exponentWidth digits exponent

/-- The significant digits of a decimal without trailing zeros, and the exponent of the first. -/
def significantDigits (coefficient : Nat) (exponent : Int) : List Char × Int :=
  let digits := Nat.toDigits 10 coefficient
  ((digits.reverse.dropWhile (· = '0')).reverse, exponent + digits.length - 1)

/-- The text of a magnitude. -/
def magnitude (format : NumberFormat) (rank : Nat) : List Char :=
  if rank = 0 then format.layout ['0'] 0
  else
    let (coefficient, exponent) := Binary64.shortest rank
    let (digits, leading) := significantDigits coefficient exponent
    format.layout digits leading

/-- A text after the sign it is given. -/
def signed (negative : Bool) (text : List Char) : List Char :=
  if negative then '-' :: text else text

/-- The text of a number. -/
def write (format : NumberFormat) : Binary64 → List Char
  | .finite negative rank => signed negative (format.magnitude rank)
  | .infinite negative => signed negative format.infinity
  | .nan => format.undefined

end NumberFormat

/-- The text of a number in messages and trees. -/
def Binary64.text (x : Binary64) : String :=
  String.ofList (NumberFormat.plain.write x)

end ExprFront
