import ExprFront.Text.Range

/-!
# Blanks

Blanks within a program are the space, the tab, the carriage return and the line feed. The readers
of number texts skip more around a number: the white space of ASCII and of Unicode.
-/

namespace ExprFront

/-- The characters that separate lexemes and mean nothing else. -/
def blanks : List Char := [' ', '\t', '\r', '\n']

/-- Does the character separate lexemes? -/
def isBlank (c : Char) : Bool :=
  blanks.contains c

theorem isBlank_iff {c : Char} : isBlank c = true ↔ c = ' ' ∨ c = '\t' ∨ c = '\r' ∨ c = '\n' := by
  simp [isBlank, blanks]

/-- The white space of ASCII, as skipped around a number text. -/
def isAsciiSpace (c : Char) : Bool :=
  c == ' ' || (0x9 ≤ c.toNat && c.toNat ≤ 0xD)

/-- The white space of Unicode outside ASCII. -/
def wideSpaces : CharClass :=
  [(0x85, 0x85), (0xA0, 0xA0), (0x1680, 0x1680), (0x2000, 0x200A), (0x2028, 0x2029),
   (0x202F, 0x202F), (0x205F, 0x205F), (0x3000, 0x3000)]

end ExprFront
