import ExprFront.Number.Format
import ExprFront.Text.Hex

/-!
# JSON values and their text

Values are written on one line or indented. Texts are written in ASCII, with code points beyond
16 bits as surrogate pairs.
-/

namespace ExprFront

/-- A JSON value; the members of an object keep their order. -/
inductive Json where
  | null
  | bool (value : Bool)
  | number (value : Binary64)
  | text (value : String)
  | array (items : List Json)
  | object (members : List (String × Json))
  deriving Inhabited

namespace Json

/-! ## Scalars -/

/-- The format of numbers. -/
def numberFormat : NumberFormat :=
  { NumberFormat.plain with
    infinity := ['I', 'n', 'f', 'i', 'n', 'i', 't', 'y']
    undefined := ['N', 'a', 'N'] }

/-- A 16-bit unit as an escape. -/
def escapeUnit (n : Nat) : List Char :=
  '\\' :: 'u' :: hex 4 n

/-- A character as it stands within a JSON text. -/
def escape (c : Char) : List Char :=
  if c = '"' ∨ c = '\\' then ['\\', c]
  else if c = '\n' then ['\\', 'n']
  else if c = '\r' then ['\\', 'r']
  else if c = '\t' then ['\\', 't']
  else if c = '\x08' then ['\\', 'b']
  else if c = '\x0c' then ['\\', 'f']
  else if ' ' ≤ c ∧ c ≤ '~' then [c]
  else if c.toNat < 0x10000 then escapeUnit c.toNat
  else
    let above := c.toNat - 0x10000
    escapeUnit (0xD800 + above / 0x400) ++ escapeUnit (0xDC00 + above % 0x400)

/-- A text between its quotes. -/
def quote (text : String) : String :=
  String.ofList ('"' :: text.toList.flatMap escape ++ ['"'])

/-- A value that has no parts. -/
def scalar : Json → String
  | .bool value => if value then "true" else "false"
  | .number value => String.ofList (numberFormat.write value)
  | .text value => quote value
  | _ => "null"

/-! ## On one line -/

mutual

/-- A value on one line. -/
def compact : Json → String
  | .array items => "[" ++ compactItems items ++ "]"
  | .object members => "\x7b" ++ compactMembers members ++ "\x7d"
  | value => value.scalar

/-- Items with commas between them. -/
def compactItems : List Json → String
  | [] => ""
  | [item] => compact item
  | item :: rest => compact item ++ ", " ++ compactItems rest

/-- Members with commas between them. -/
def compactMembers : List (String × Json) → String
  | [] => ""
  | [(key, value)] => quote key ++ ": " ++ compact value
  | (key, value) :: rest => quote key ++ ": " ++ compact value ++ ", " ++ compactMembers rest

end

/-! ## Indented -/

/-- A line break before a line at a depth. -/
def newLine (depth : Nat) : String :=
  "\n" ++ String.join (List.replicate depth "  ")

mutual

/-- A value over several lines, its parts one step deeper than `depth`. -/
def indented (depth : Nat) : Json → String
  | .array [] => "[]"
  | .array items => "[" ++ indentedItems (depth + 1) items ++ newLine depth ++ "]"
  | .object [] => "\x7b\x7d"
  | .object members => "\x7b" ++ indentedMembers (depth + 1) members ++ newLine depth ++ "\x7d"
  | value => value.scalar

/-- Items, each on a line of its own. -/
def indentedItems (depth : Nat) : List Json → String
  | [] => ""
  | [item] => newLine depth ++ indented depth item
  | item :: rest => newLine depth ++ indented depth item ++ "," ++ indentedItems depth rest

/-- Members, each on a line of its own. -/
def indentedMembers (depth : Nat) : List (String × Json) → String
  | [] => ""
  | [(key, value)] => newLine depth ++ quote key ++ ": " ++ indented depth value
  | (key, value) :: rest =>
    newLine depth ++ quote key ++ ": " ++ indented depth value ++ "," ++ indentedMembers depth rest

end

end Json

end ExprFront
