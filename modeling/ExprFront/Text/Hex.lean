/-!
# Hexadecimal text

Code points are written in escapes as a fixed number of lower case hexadecimal digits.
-/

namespace ExprFront

/-- The last `width` hexadecimal digits of a number, most significant first. -/
def hex : Nat → Nat → List Char
  | 0, _ => []
  | width + 1, n => hex width (n / 16) ++ [Nat.digitChar (n % 16)]

@[simp] theorem hex_zero (n : Nat) : hex 0 n = [] := rfl

@[simp] theorem length_hex (width n : Nat) : (hex width n).length = width := by
  induction width generalizing n with
  | zero => rfl
  | succ width ih => simp [hex, ih]

end ExprFront
