import ExprFront.Number.Binary64

/-!
# The shortest decimal of a number

A finite number is written with the fewest digits that read back as the same number, and among
those with the digits nearest to it. The search tries grids of one significant digit, two digits
and so on; on each grid only the two neighbours of the number can be nearest to it.
-/

namespace ExprFront.Binary64

/-- How many decimal digits a number has. -/
def digitCount (n : Nat) : Nat :=
  (Nat.toDigits 10 n).length

/-- The exponent of the leading decimal digit of a positive magnitude. -/
def leadingExponent (rank : Nat) : Int :=
  if unitsPerOne ≤ units rank then digitCount (units rank / unitsPerOne) - 1
  else -digitCount ((unitsPerOne - 1) / units rank)

/-- Does `coefficient * 10 ^ exponent` read back as the magnitude? -/
def readsBack (rank : Nat) (coefficient : Nat) (exponent : Int) : Bool :=
  match ofDecimal false coefficient exponent with
  | .finite _ r => r.val == rank
  | _ => false

/-- The coefficient of the decimal on the grid of `10 ^ exponent` that is nearest to the magnitude
among those that read back, a half going to the even one. -/
def nearestOn (rank : Nat) (exponent : Int) : Option Nat :=
  let num := units rank * Nat.pow 10 (-exponent).toNat
  let den := unitsPerOne * Nat.pow 10 exponent.toNat
  let low := num / den
  let near := roundDiv num den
  let far := if near = low then low + 1 else low
  if readsBack rank near exponent then some near
  else if readsBack rank far exponent then some far
  else none

/-- A decimal for each magnitude: from the coarsest grid that has one of at most 17 digits, else
the exact value. -/
def shortest (rank : Nat) : Nat × Int :=
  let leading := leadingExponent rank
  let grids := (List.range 17).map fun (n : Nat) => leading - (n : Int)
  let found := grids.findSome? fun exponent =>
    (nearestOn rank exponent).map fun coefficient => (coefficient, exponent)
  found.getD (units rank * Nat.pow 5 1074, -1074)

end ExprFront.Binary64
