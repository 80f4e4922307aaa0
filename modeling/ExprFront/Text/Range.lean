/-!
# Classes of characters as ranges

A class of characters is a list of code point ranges. Membership is one pass over the list, so
a class can be as large as a Unicode category and a lookup still reduces by plain evaluation.
-/

namespace ExprFront

/-- A class of characters: the first and the last code point of each of its ranges. -/
abbrev CharClass := List (Nat × Nat)

namespace CharClass

/-- Does some range of the class hold the character? -/
def holds (ranges : CharClass) (c : Char) : Bool :=
  ranges.any fun (first, last) => first ≤ c.toNat && c.toNat ≤ last

theorem holds_iff {ranges : CharClass} {c : Char} :
    ranges.holds c = true ↔ ∃ r ∈ ranges, r.1 ≤ c.toNat ∧ c.toNat ≤ r.2 := by
  simp [holds]

@[simp] theorem holds_nil (c : Char) : holds [] c = false := rfl

theorem holds_cons (first last : Nat) (ranges : CharClass) (c : Char) :
    holds ((first, last) :: ranges) c =
      ((decide (first ≤ c.toNat) && decide (c.toNat ≤ last)) || holds ranges c) := rfl

end CharClass

end ExprFront
