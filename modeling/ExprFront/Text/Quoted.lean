import ExprFront.Text.Hex
import ExprFront.Text.Printable

/-!
# Quoted text

Texts are shown within messages and trees between quotes: single ones, unless the text holds a
single quote and no double one. The quote in use and the backslash are escaped, line breaks and
tabs have short escapes, and what is not printable is shown by its code point.
-/

namespace ExprFront.Quoted

/-- The quote around a text: double exactly when it holds single quotes only. -/
def mark (text : List Char) : Char :=
  if text.contains '\'' && !text.contains '"' then '"' else '\''

/-- A code point in the shortest of the three escapes that has room for it. -/
def escapeCode (n : Nat) : List Char :=
  if n < 0x100 then '\\' :: 'x' :: hex 2 n
  else if n < 0x10000 then '\\' :: 'u' :: hex 4 n
  else '\\' :: 'U' :: hex 8 n

/-- One character as it stands between two `quote` characters. -/
def escape (quote c : Char) : List Char :=
  if c = quote ∨ c = '\\' then ['\\', c]
  else if c = '\n' then ['\\', 'n']
  else if c = '\r' then ['\\', 'r']
  else if c = '\t' then ['\\', 't']
  else if isPrintable c then [c]
  else escapeCode c.toNat

/-- A text between its quotes. -/
def encode (text : List Char) : List Char :=
  let quote := mark text
  quote :: text.flatMap (escape quote) ++ [quote]

end ExprFront.Quoted

namespace ExprFront

/-- A text between its quotes, as a string. -/
def quoted (text : String) : String :=
  String.ofList (Quoted.encode text.toList)

end ExprFront
