import Mathlib.Algebra.Ring.Nat
import ExprFront.Number.Shortest

/-!
# Rounding

The rank of a quotient depends on the quotient alone, and the magnitude of a rank has that very
rank. So the value of a decimal does not depend on how the decimal is scaled, the exponents that are
answered without computing a power are answered as rounding would, and the shortest decimal of a
number reads back as the number.
-/

namespace ExprFront.Binary64

/-! ## Rounding depends on the quotient alone -/

section

variable {num den num' den' k : Nat}

theorem roundDiv_mul_right (hk : 0 < k) (num den : Nat) :
    roundDiv (num * k) (den * k) = roundDiv num den := by
  have htwice : 2 * (num % den * k) = 2 * (num % den) * k := by rw [Nat.mul_assoc]
  have hlt : 2 * (num % den) * k < den * k ↔ 2 * (num % den) < den := Nat.mul_lt_mul_right hk
  have heq : 2 * (num % den) * k = den * k ↔ 2 * (num % den) = den := Nat.mul_left_inj (by omega)
  simp only [roundDiv, Nat.mul_div_mul_right _ _ hk, Nat.mul_mod_mul_right, htwice, hlt, heq]

theorem rankOf_mul_right (hk : 0 < k) (num den : Nat) :
    rankOf (num * k) (den * k) = rankOf num den := by
  have hnum : num * k * unitsPerOne = num * unitsPerOne * k := Nat.mul_right_comm _ _ _
  have hden : ∀ n, den * k * n = den * n * k := fun n => Nat.mul_right_comm _ _ _
  simp only [rankOf, hnum, hden, Nat.mul_div_mul_right _ _ hk, roundDiv_mul_right hk]

/-- Equal quotients have the same rank. -/
theorem rankOf_congr (hden : 0 < den) (hden' : 0 < den') (h : num * den' = num' * den) :
    rankOf num den = rankOf num' den' := calc
  rankOf num den = rankOf (num * den') (den * den') := (rankOf_mul_right hden' _ _).symm
  _ = rankOf (num' * den) (den' * den) := by rw [h, Nat.mul_comm den]
  _ = rankOf num' den' := rankOf_mul_right hden _ _

end

/-! ## Magnitudes and their ranks -/

theorem roundDiv_mul_self {den : Nat} (hden : 0 < den) (n : Nat) : roundDiv (n * den) den = n := by
  simp [roundDiv, Nat.mul_div_cancel n hden, hden]

theorem div_le_roundDiv (num den : Nat) : num / den ≤ roundDiv num den := by
  simp only [roundDiv]
  split <;> omega

theorem binade_eq : binade = 2 ^ 52 := rfl

/-- The units of one are a power of two; its exponent is a variable, so that no step computes it. -/
theorem exists_unitsPerOne_eq : ∃ n, n = 1074 ∧ unitsPerOne = 2 ^ n :=
  ⟨1074, rfl, rfl⟩

theorem unitsPerOne_pos : 0 < unitsPerOne := by
  obtain ⟨n, -, hunits⟩ := exists_unitsPerOne_eq
  rw [hunits]
  exact Nat.two_pow_pos n

theorem units_eq (rank : Nat) : units rank = significand rank * 2 ^ doublings rank := rfl

/-- Magnitudes that are doubled have a significand with its leading bit set. -/
theorem binade_le_significand {rank : Nat} (h : doublings rank ≠ 0) :
    binade ≤ significand rank := by
  simp only [significand, doublings, binade] at *
  omega

theorem log2_units (rank : Nat) : (units rank).log2 - 52 = doublings rank := by
  have hlt := significand_lt rank
  by_cases hzero : doublings rank = 0
  · rw [hzero]
    have hunits : units rank = significand rank := by rw [units_eq, hzero, Nat.pow_zero, Nat.mul_one]
    by_cases hnone : units rank = 0
    · rw [hnone, Nat.log2_zero]
    · have hlog : (units rank).log2 < 53 := by
        rw [Nat.log2_lt hnone, hunits]
        exact hlt
      omega
  · have hlow : 2 ^ (52 + doublings rank) ≤ units rank := by
      rw [Nat.pow_add, units_eq]
      exact Nat.mul_le_mul_right _ (binade_le_significand hzero)
    have hhigh : units rank < 2 ^ (52 + doublings rank + 1) := by
      rw [units_eq, Nat.add_right_comm, Nat.pow_add]
      exact Nat.mul_lt_mul_of_pos_right hlt (Nat.two_pow_pos _)
    have hne : units rank ≠ 0 := Nat.ne_of_gt (Nat.lt_of_lt_of_le (Nat.two_pow_pos _) hlow)
    have hlog := (Nat.log2_eq_iff hne).2 ⟨hlow, hhigh⟩
    omega

/-- A magnitude has the rank that it is the magnitude of. -/
theorem rankOf_units (rank : Nat) : rankOf (units rank) unitsPerOne = rank := by
  have hscale : 0 < unitsPerOne * 2 ^ doublings rank :=
    Nat.mul_pos unitsPerOne_pos (Nat.two_pow_pos _)
  have hnum : units rank * unitsPerOne = significand rank * (unitsPerOne * 2 ^ doublings rank) := by
    rw [units_eq, Nat.mul_assoc, Nat.mul_comm (2 ^ _)]
  simp only [rankOf, Nat.mul_div_cancel _ unitsPerOne_pos, log2_units, Nat.pow_eq]
  rw [hnum, roundDiv_mul_self hscale, doublings_add_significand]

/-! ## Exponents that need no power -/

section

variable {num den : Nat}

/-- What is less than half a unit has rank zero. -/
theorem rankOf_eq_zero (h : 2 * (num * unitsPerOne) < den) : rankOf num den = 0 := by
  have hlt : num * unitsPerOne < den := by omega
  have hdiv : num * unitsPerOne / den = 0 := Nat.div_eq_of_lt hlt
  simp [rankOf, hdiv, roundDiv, Nat.mod_eq_of_lt hlt, h]

/-- A quotient that fills so many binades has a rank beyond them. -/
theorem mul_binade_le_rankOf {d m : Nat} (hden : 0 < den) (hm : 52 + d ≤ m)
    (h : 2 ^ m * den ≤ num * unitsPerOne) : (d + 1) * binade ≤ rankOf num den := by
  have hquotient : 2 ^ m ≤ num * unitsPerOne / den := (Nat.le_div_iff_mul_le hden).2 h
  have hne : num * unitsPerOne / den ≠ 0 :=
    Nat.ne_of_gt (Nat.lt_of_lt_of_le (Nat.two_pow_pos _) hquotient)
  have hlog : m ≤ (num * unitsPerOne / den).log2 := (Nat.le_log2 hne).2 hquotient
  have hself := Nat.log2_self_le hne
  generalize hD : (num * unitsPerOne / den).log2 - 52 = D at *
  have hbinade : binade ≤ roundDiv (num * unitsPerOne) (den * 2 ^ D) := by
    refine Nat.le_trans ?_ (div_le_roundDiv _ _)
    rw [← Nat.div_div_eq_div_mul, Nat.le_div_iff_mul_le (Nat.two_pow_pos _), binade_eq,
      ← Nat.pow_add]
    have hsum : 52 + D = (num * unitsPerOne / den).log2 := by omega
    rwa [hsum]
  simp only [rankOf, hD, Nat.pow_eq]
  calc
    (d + 1) * binade = d * binade + binade := Nat.succ_mul _ _
    _ ≤ D * binade + binade := Nat.add_le_add_right (Nat.mul_le_mul_right _ (by omega)) _
    _ ≤ _ := Nat.add_le_add_left hbinade _

end

theorem two_pow_le_ten_pow {m n : Nat} (h : m ≤ 3 * n) : 2 ^ m ≤ 10 ^ n := calc
  2 ^ m ≤ 2 ^ (3 * n) := Nat.pow_le_pow_right (by decide) h
  _ = 8 ^ n := Nat.pow_mul 2 3 n
  _ ≤ 10 ^ n := Nat.pow_le_pow_left (by decide) n

section

variable {num den num' den' : Nat} (negative : Bool)

theorem ofRatio_eq_zero (h : rankOf num den = 0) : ofRatio negative num den = zero negative := by
  have hlt : 0 < rankCount := by decide
  simp [ofRatio, zero, h, hlt]

theorem ofRatio_eq_infinite (h : rankCount ≤ rankOf num den) :
    ofRatio negative num den = .infinite negative := by
  simp [ofRatio, Nat.not_lt.2 h]

theorem ofRatio_congr (hden : 0 < den) (hden' : 0 < den') (h : num * den' = num' * den) :
    ofRatio negative num den = ofRatio negative num' den' := by
  rw [ofRatio, ofRatio, rankOf_congr hden hden' h]

end

section

variable {coefficient : Nat} {exponent : Int}

/-- A decimal with a large exponent lies beyond all finite numbers. -/
theorem rankCount_le_rankOf (hne : coefficient ≠ 0) (hlarge : 400 < exponent) :
    rankCount ≤ rankOf (coefficient * 10 ^ exponent.toNat) (10 ^ (-exponent).toNat) := by
  have hpositive : (-exponent).toNat = 0 := by omega
  obtain ⟨n, hn, hunits⟩ := exists_unitsPerOne_eq
  have hrank : 52 + 2046 ≤ 3 * exponent.toNat + n := by omega
  refine mul_binade_le_rankOf (Nat.pow_pos (by decide)) hrank ?_
  rw [hpositive, Nat.pow_zero, Nat.mul_one, Nat.pow_add, ← hunits]
  calc
    2 ^ (3 * exponent.toNat) * unitsPerOne ≤ 10 ^ exponent.toNat * unitsPerOne :=
      Nat.mul_le_mul_right _ (two_pow_le_ten_pow (Nat.le_refl _))
    _ ≤ coefficient * 10 ^ exponent.toNat * unitsPerOne :=
      Nat.mul_le_mul_right _ (Nat.le_mul_of_pos_left _ (Nat.pos_of_ne_zero hne))

/-- A decimal with a small exponent is nearest to zero. -/
theorem rankOf_eq_zero_of_small (hsmall : exponent + coefficient.log2 < -400) :
    rankOf (coefficient * 10 ^ exponent.toNat) (10 ^ (-exponent).toNat) = 0 := by
  have hnegative : exponent.toNat = 0 := by omega
  rw [hnegative, Nat.pow_zero, Nat.mul_one]
  obtain ⟨n, hn, hunits⟩ := exists_unitsPerOne_eq
  refine rankOf_eq_zero ?_
  calc
    2 * (coefficient * unitsPerOne) < 2 * (2 ^ (coefficient.log2 + 1) * unitsPerOne) :=
      Nat.mul_lt_mul_of_pos_left
        (Nat.mul_lt_mul_of_pos_right Nat.lt_log2_self unitsPerOne_pos) (by decide)
    _ = 2 ^ (coefficient.log2 + 1 + n + 1) := by
      rw [hunits, ← Nat.pow_add, ← Nat.pow_add_one']
    _ ≤ 10 ^ (-exponent).toNat := two_pow_le_ten_pow (by omega)

end

section

variable (negative : Bool) (coefficient : Nat) (exponent : Int)

/-- Every decimal is rounded, also where no power is computed. -/
theorem ofDecimal_eq_ofRatio :
    ofDecimal negative coefficient exponent =
      ofRatio negative (coefficient * 10 ^ exponent.toNat) (10 ^ (-exponent).toNat) := by
  unfold ofDecimal
  split
  case isTrue hzero =>
    refine (ofRatio_eq_zero negative (rankOf_eq_zero ?_)).symm
    rw [hzero, Nat.zero_mul, Nat.zero_mul, Nat.mul_zero]
    exact Nat.pow_pos (by decide)
  case isFalse hne =>
  split
  case isTrue hlarge => exact (ofRatio_eq_infinite negative (rankCount_le_rankOf hne hlarge)).symm
  case isFalse =>
  split
  case isTrue hsmall => exact (ofRatio_eq_zero negative (rankOf_eq_zero_of_small hsmall)).symm
  case isFalse => rfl

/-- Shifting the digits of a decimal against its exponent does not change its value. -/
theorem ofDecimal_shift (k : Nat) :
    ofDecimal negative (coefficient * 10 ^ k) exponent =
      ofDecimal negative coefficient (exponent + k) := by
  rw [ofDecimal_eq_ofRatio, ofDecimal_eq_ofRatio]
  refine ofRatio_congr negative (Nat.pow_pos (by decide)) (Nat.pow_pos (by decide)) ?_
  have hsum : k + exponent.toNat + (-(exponent + k)).toNat =
      (exponent + k).toNat + (-exponent).toNat := by omega
  rw [Nat.mul_assoc, Nat.mul_assoc, Nat.mul_assoc, ← Nat.pow_add, ← Nat.pow_add, ← Nat.pow_add,
    ← Nat.add_assoc, hsum]

end

/-! ## The shortest decimal -/

section

variable {rank coefficient : Nat} {exponent : Int}

theorem rankOf_of_readsBack (h : readsBack rank coefficient exponent = true) :
    rankOf (coefficient * 10 ^ exponent.toNat) (10 ^ (-exponent).toNat) = rank := by
  rw [readsBack, ofDecimal_eq_ofRatio, ofRatio] at h
  split at h
  case h_1 hfinite =>
    split at hfinite
    · cases hfinite
      exact eq_of_beq h
    · cases hfinite
  case h_2 => cases h

theorem readsBack_of_nearestOn (h : nearestOn rank exponent = some coefficient) :
    readsBack rank coefficient exponent = true := by
  unfold nearestOn at h
  extract_lets num den low near far at h
  clear_value near far
  split at h
  case isTrue hnear => rwa [← Option.some.inj h]
  case isFalse =>
    split at h
    case isTrue hfar => rwa [← Option.some.inj h]
    case isFalse => cases h

/-- The decimal of a magnitude has its rank. -/
theorem rankOf_shortest (rank : Nat) :
    rankOf ((shortest rank).1 * 10 ^ (shortest rank).2.toNat) (10 ^ (-(shortest rank).2).toNat) =
      rank := by
  unfold shortest
  extract_lets leading grids found
  cases hfound : found with
  | some decimal =>
    obtain ⟨exponent, -, hnearest⟩ := List.exists_of_findSome?_eq_some hfound
    obtain ⟨coefficient, hcoefficient, rfl⟩ := Option.map_eq_some_iff.1 hnearest
    exact rankOf_of_readsBack (readsBack_of_nearestOn hcoefficient)
  | none =>
    -- the exact decimal has as many fives as one has twos, so together they make tens
    obtain ⟨n, hn, hunits⟩ := exists_unitsPerOne_eq
    have hexponent : (-1074 : Int) = -(n : Int) := by omega
    have hwhole : (-(n : Int)).toNat = 0 := by omega
    have hfraction : (- -(n : Int)).toNat = n := by omega
    rw [Option.getD_none, hexponent, hwhole, hfraction, ← hn, Nat.pow_zero, Nat.mul_one, Nat.pow_eq]
    have htens : units rank * 5 ^ n * unitsPerOne = units rank * 10 ^ n := by
      rw [hunits, Nat.mul_assoc, ← Nat.mul_pow]
    exact (rankOf_congr (Nat.pow_pos (by decide)) unitsPerOne_pos htens).trans (rankOf_units rank)

/-- The shortest decimal of a number reads back as the number. -/
theorem ofDecimal_shortest (negative : Bool) (h : rank < rankCount) :
    ofDecimal negative (shortest rank).1 (shortest rank).2 = .finite negative ⟨rank, h⟩ := by
  rw [ofDecimal_eq_ofRatio, ofRatio]
  simp only [rankOf_shortest, h, dite_true]

end

end ExprFront.Binary64
