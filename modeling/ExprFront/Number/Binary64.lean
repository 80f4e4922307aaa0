/-!
# Binary numbers of 64 bits

The numbers of the language. A finite one is its sign and the rank of its magnitude among the
finite magnitudes, counted upward from zero: each binade holds `2 ^ 52` of them, so a rank splits
into an integral significand and a power of two by division alone, and rounding to a rank that no
finite magnitude has is exactly overflow.
-/

namespace ExprFront

namespace Binary64

/-- How many magnitudes each binade holds: two to the power of 52. -/
def binade : Nat := 0x10000000000000

/-- How many finite magnitudes there are; as a rank it is the one of infinity. -/
def rankCount : Nat := 2047 * binade

end Binary64

/-- A binary number of 64 bits; all undefined results are one value. -/
inductive Binary64 where
  | finite (negative : Bool) (rank : Fin Binary64.rankCount)
  | infinite (negative : Bool)
  | nan
  deriving DecidableEq

namespace Binary64

/-- Zero with a sign. -/
def zero (negative : Bool) : Binary64 :=
  .finite negative ⟨0, by decide⟩

instance : Inhabited Binary64 := ⟨zero false⟩

/-- Numeric equality: the two zeros are equal, and the undefined value differs from itself. -/
def equals : Binary64 → Binary64 → Bool
  | .finite n r, .finite n' r' => r == r' && (n == n' || r.val == 0)
  | .infinite n, .infinite n' => n == n'
  | _, _ => false

@[simp] theorem equals_nan_left (x : Binary64) : equals .nan x = false := by
  cases x <;> rfl

@[simp] theorem equals_nan_right (x : Binary64) : equals x .nan = false := by
  cases x <;> rfl

@[simp] theorem equals_self_iff {x : Binary64} : x.equals x = true ↔ x ≠ .nan := by
  cases x <;> simp [equals]

/-! ## Magnitudes -/

/-- Every finite magnitude is a multiple of one part in `2 ^ 1074`. -/
def unitsPerOne : Nat := Nat.pow 2 1074

/-- How often the significand of a magnitude is doubled to count its units. -/
def doublings (rank : Nat) : Nat :=
  rank / binade - 1

/-- The significand of a magnitude, with its leading bit. -/
def significand (rank : Nat) : Nat :=
  rank - doublings rank * binade

/-- A magnitude in units. -/
def units (rank : Nat) : Nat :=
  significand rank * Nat.pow 2 (doublings rank)

theorem doublings_add_significand (rank : Nat) :
    doublings rank * binade + significand rank = rank := by
  have : doublings rank * binade ≤ rank := by simp only [doublings, binade]; omega
  simp only [significand]; omega

theorem significand_lt (rank : Nat) : significand rank < 2 * binade := by
  simp only [significand, doublings, binade]; omega

/-! ## Rounding -/

/-- The natural number nearest to a quotient; a half goes to the even neighbour. -/
def roundDiv (num den : Nat) : Nat :=
  let low := num / den
  let twice := 2 * (num % den)
  if twice < den ∨ (twice = den ∧ low % 2 = 0) then low else low + 1

/-- The rank of the magnitude nearest to a quotient; a half goes to the even significand. -/
def rankOf (num den : Nat) : Nat :=
  let doubled := (num * unitsPerOne / den).log2 - 52
  doubled * binade + roundDiv (num * unitsPerOne) (den * Nat.pow 2 doubled)

/-- The number nearest to a quotient, or infinity where that lies beyond the finite ones. -/
def ofRatio (negative : Bool) (num den : Nat) : Binary64 :=
  let rank := rankOf num den
  if h : rank < rankCount then .finite negative ⟨rank, h⟩ else .infinite negative

/-- The number nearest to `coefficient * 10 ^ exponent`. Exponents at which no coefficient of
that size can give a finite number other than zero are answered without computing the power. -/
def ofDecimal (negative : Bool) (coefficient : Nat) (exponent : Int) : Binary64 :=
  if coefficient = 0 then zero negative
  else if 400 < exponent then .infinite negative
  else if exponent + coefficient.log2 < -400 then zero negative
  else ofRatio negative (coefficient * Nat.pow 10 exponent.toNat) (Nat.pow 10 (-exponent).toNat)

end Binary64

end ExprFront
