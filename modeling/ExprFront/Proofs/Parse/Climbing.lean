import ExprFront.Proofs.Grammar.Phrase
import ExprFront.Proofs.Parse.Progress

/-!
# Precedence climbing

The tiers of operators are steps of their own, each a loop over operands of the next tighter tier.
The same expressions are read by one loop with a threshold: it takes every operator that binds at
least as tightly, and reads the operand behind it with the threshold just above that operator. The
inner loops of the one are the nested calls of the other, and both stop in the same places.
-/

namespace ExprFront.Parse

/-! ## One loop for all tiers -/

/-- Passes over an operator of a tier or a tighter one. -/
def operatorFrom (tier : Nat) : Parse (Option { op : BinaryOp // tier ≤ op.tier }) :=
  acceptAs fun t => t.kind.binaryOp?.bind fun op => if h : tier ≤ op.tier then some ⟨op, h⟩ else none

/-- Goes on with an expression while there are operators of a tier or a tighter one. What stands
behind an operator depends on it. -/
def climbRounds (tier : Nat) (operand : (op : BinaryOp) → tier ≤ op.tier → Parse Node) :
    List Token → Node → Parse Node
  | [], left => pure left
  | _ :: rounds, left => do
    match ← operatorFrom tier with
    | none => pure left
    | some ⟨op, h⟩ =>
      let right ← operand op h
      climbRounds tier operand rounds (.binary left.position op left right)

/-- Reads an expression of operators of a tier or tighter ones. Behind each of them comes an
expression of still tighter operators. -/
def climb (primary : Parse Node) (tier : Nat) : Parse Node := do
  let left ← primary
  bounded fun rounds => climbRounds tier (fun op _ => climb primary (op.tier + 1)) rounds left
termination_by 5 - tier
decreasing_by
  have hle := op.tier_le_four
  omega

/-- Goes on with climbing behind what has been read. -/
def climbFrom (primary : Parse Node) (tier : Nat) (left : Node) : Parse Node :=
  bounded fun rounds => climbRounds tier (fun op _ => climb primary (op.tier + 1)) rounds left

theorem climb_eq (primary : Parse Node) (tier : Nat) :
    climb primary tier = primary >>= climbFrom primary tier := by
  rw [climb]
  rfl

section

variable {tier : Nat} {c : Cursor} {t : Token} {rest : List Token} {op : BinaryOp}

theorem operatorFrom_none (h : Stops tier false c.ahead.head?) :
    operatorFrom tier c = .ok none c := by
  cases hc : c.ahead with
  | nil => exact acceptAs_nil _ hc
  | cons t rest =>
    refine acceptAs_none hc ?_
    rw [hc] at h
    simp only [Option.bind_eq_none_iff, dite_eq_right_iff, reduceCtorEq, imp_false, Nat.not_le]
    exact fun op hop => (h t op rfl hop).1

theorem operatorFrom_some (hc : c.ahead = t :: rest) (hop : t.kind.binaryOp? = some op)
    (h : tier ≤ op.tier) :
    operatorFrom tier c = .ok (some ⟨op, h⟩) { c with passed := t :: c.passed, ahead := rest } :=
  acceptAs_some hc (by simp [hop, h])

theorem operator_none (h : ∀ t op, c.ahead.head? = some t → t.kind.binaryOp? = some op →
    op.tier ≠ tier) : operator tier c = .ok none c := by
  cases hc : c.ahead with
  | nil => exact acceptAs_nil _ hc
  | cons t rest =>
    refine acceptAs_none hc ?_
    rw [hc] at h
    simpa [Option.filter_eq_none_iff] using h t

theorem operator_some (hc : c.ahead = t :: rest) (hop : t.kind.binaryOp? = some op) :
    operator op.tier c = .ok (some op) { c with passed := t :: c.passed, ahead := rest } :=
  acceptAs_some hc (by simp [hop, Option.filter])

/-- Either every expression of the tier stops at the cursor, or an operator of the tier or a tighter
one is ahead. -/
theorem stops_or_operator (tier : Nat) (c : Cursor) :
    Stops tier false c.ahead.head? ∨
      ∃ t rest op, c.ahead = t :: rest ∧ t.kind.binaryOp? = some op ∧ tier ≤ op.tier := by
  cases hc : c.ahead with
  | nil => exact .inl (Stops.at_end tier false)
  | cons t rest =>
    cases hop : t.kind.binaryOp? with
    | none => exact .inl (Stops.of_kind hop tier false)
    | some op =>
      by_cases h : tier ≤ op.tier
      · exact .inr ⟨t, rest, op, rfl, hop, h⟩
      · refine .inl ?_
        rintro _ op' ⟨⟩ hop'
        rw [hop, Option.some.injEq] at hop'
        subst hop'
        exact ⟨Nat.lt_of_not_le h, rfl⟩

end

/-! ## The loop without a bound -/

section

variable {p : Parse Node} {tier : Nat} {left : Node} {c c' : Cursor}

theorem Keeps.climbRounds {operand : (op : BinaryOp) → tier ≤ op.tier → Parse Node}
    (h : ∀ op hop, Keeps (operand op hop)) (rounds : List Token) (left : Node) :
    Keeps (climbRounds tier operand rounds left) := by
  induction rounds generalizing left with
  | nil => exact Keeps.pure left
  | cons t rounds ih =>
    unfold Parse.climbRounds
    apply (Keeps.acceptAs _).bind
    rintro (_ | ⟨op, hop⟩)
    · exact Keeps.pure left
    · exact (h op hop).bind fun right => ih _

theorem Advances.climb (h : Advances p) (tier : Nat) : Advances (climb p tier) := by
  rw [climb_eq]
  apply h.bind
  intro left c tree c' hc
  -- behind an operator of the tier the threshold is higher
  refine Keeps.climbRounds (fun op hop => ?_) c.ahead left c tree c' hc
  have hle := op.tier_le_four
  exact (Advances.climb h (op.tier + 1)).keeps
termination_by 5 - tier

theorem climbFrom_eq (h : Advances p) (tier : Nat) (left : Node) :
    climbFrom p tier left = (do
      match ← operatorFrom tier with
      | none => pure left
      | some ⟨op, _⟩ =>
        let right ← climb p (op.tier + 1)
        climbFrom p tier (.binary left.position op left right)) := by
  refine loop_eq_body
    (fun next left => do
      match ← operatorFrom tier with
      | none => pure left
      | some ⟨op, _⟩ =>
        let right ← climb p (op.tier + 1)
        next (.binary left.position op left right))
    (fun rounds left => climbRounds tier (fun op _ => climb p (op.tier + 1)) rounds left) ?_ ?_
    (fun t rounds a => rfl) left
  · intro k k' left c hk
    apply bind_congr
    rintro (_ | ⟨op, hop⟩) c₁ h₁
    · rfl
    · apply bind_congr
      intro right c₂ h₂
      have k₁ : c₁.ahead.length ≤ c.ahead.length := Keeps.acceptAs _ _ _ _ h₁
      exact hk _ _ (Nat.lt_of_lt_of_le (h.climb _ _ _ _ h₂) k₁)
  · intro left c hc
    have hop : operatorFrom tier c = .ok none c := acceptAs_nil _ hc
    rw [bind_ok hop]
    rfl

theorem climbFrom_stop (h : Advances p) (hstops : Stops tier false c.ahead.head?) :
    climbFrom p tier left c = .ok left c := by
  rw [climbFrom_eq h, bind_ok (operatorFrom_none hstops)]
  rfl

theorem climbFrom_operator {t : Token} {rest : List Token} {op : BinaryOp} (h : Advances p)
    (hc : c.ahead = t :: rest) (hop : t.kind.binaryOp? = some op) (htier : tier ≤ op.tier) :
    climbFrom p tier left c = (climb p (op.tier + 1) >>= fun right =>
      climbFrom p tier (.binary left.position op left right))
        { c with passed := t :: c.passed, ahead := rest } := by
  rw [climbFrom_eq h, bind_ok (operatorFrom_some hc hop htier)]

/-- Climbing ends where no operator of the tier or a tighter one is ahead. -/
theorem climbFrom_stops (h : Advances p) {left tree : Node} {c c' : Cursor}
    (hrun : climbFrom p tier left c = .ok tree c') : Stops tier false c'.ahead.head? := by
  obtain hstops | ⟨t, rest, op, hc, hop, htier⟩ := stops_or_operator tier c
  · rw [climbFrom_stop h hstops] at hrun
    cases hrun
    exact hstops
  -- induction on the tokens ahead: an operator and its operand have gone
  · rw [climbFrom_operator h hc hop htier, bind_apply] at hrun
    split at hrun
    · rename_i right c₁ h₁
      have hlt : c₁.ahead.length < rest.length := h.climb _ _ _ _ h₁
      have hlength : c.ahead.length = rest.length + 1 := by rw [hc, List.length_cons]
      exact climbFrom_stops h hrun
    · cases hrun
termination_by c.ahead.length

theorem climb_stops (h : Advances p) {tree : Node} (hrun : climb p tier c = .ok tree c') :
    Stops tier false c'.ahead.head? := by
  rw [climb_eq, bind_apply] at hrun
  split at hrun
  · exact climbFrom_stops h hrun
  · cases hrun

/-! ## The tiers climb -/

theorem chainFrom_stop {operand : Parse Node} (ha : Advances operand)
    (h : ∀ t op, c.ahead.head? = some t → t.kind.binaryOp? = some op → op.tier ≠ tier) :
    chainFrom tier operand left c = .ok left c := by
  rw [chainFrom_eq ha, bind_ok (operator_none h)]
  rfl

theorem chainFrom_operator {operand : Parse Node} {t : Token} {rest : List Token} {op : BinaryOp}
    (ha : Advances operand) (hc : c.ahead = t :: rest) (hop : t.kind.binaryOp? = some op) :
    chainFrom op.tier operand left c = (operand >>= fun right =>
      chainFrom op.tier operand (.binary left.position op left right))
        { c with passed := t :: c.passed, ahead := rest } := by
  rw [chainFrom_eq ha, bind_ok (operator_some hc hop)]

/-- Climbing from a tier is climbing from the next one until that stops, and then going on with the
chain of the tier. -/
theorem climbFrom_eq_chainFrom (h : Advances p) (tier : Nat) (left : Node) (c : Cursor) :
    climbFrom p tier left c =
      (climbFrom p (tier + 1) left >>= chainFrom tier (climb p (tier + 1))) c := by
  have ha := h.climb (tier + 1)
  obtain hstops | ⟨t, rest, op, hc, hop, htier⟩ := stops_or_operator tier c
  · rw [climbFrom_stop h hstops, bind_ok (climbFrom_stop h (hstops.mono (Nat.le_succ tier))),
      chainFrom_stop ha fun t op ht hop => Nat.ne_of_lt (hstops t op ht hop).1]
  rw [climbFrom_operator h hc hop htier]
  have hlength : c.ahead.length = rest.length + 1 := by rw [hc, List.length_cons]
  -- an operator of the tier itself ends the climb of the next, a tighter one belongs to it
  by_cases heq : op.tier = tier
  · subst heq
    have hstops : Stops (op.tier + 1) false c.ahead.head? := by
      rw [hc]
      rintro _ op' ⟨⟩ hop'
      rw [hop, Option.some.injEq] at hop'
      subst hop'
      exact ⟨Nat.lt_succ_self _, rfl⟩
    rw [bind_ok (climbFrom_stop h hstops), chainFrom_operator ha hc hop]
    apply bind_congr
    intro right c₁ h₁
    have hlt : c₁.ahead.length < rest.length := ha _ _ _ h₁
    rw [climbFrom_eq_chainFrom h op.tier _ c₁, bind_ok (climbFrom_stop h (climb_stops h h₁))]
  · have hlt : tier + 1 ≤ op.tier := Nat.lt_of_le_of_ne htier (Ne.symm heq)
    rw [bind_apply (climbFrom p (tier + 1) left), climbFrom_operator h hc hop hlt, ← bind_apply,
      bind_assoc]
    apply bind_congr
    intro right c₁ h₁
    have hlt : c₁.ahead.length < rest.length := h.climb _ _ _ _ h₁
    exact climbFrom_eq_chainFrom h tier _ c₁
termination_by c.ahead.length

theorem climb_eq_chained (h : Advances p) (tier : Nat) :
    climb p tier = chained tier (climb p (tier + 1)) := calc
  climb p tier = p >>= climbFrom p tier := climb_eq p tier
  _ = p >>= fun left => climbFrom p (tier + 1) left >>= chainFrom tier (climb p (tier + 1)) :=
    congrArg (p >>= ·) (funext fun left => funext fun c => climbFrom_eq_chainFrom h tier left c)
  _ = (p >>= climbFrom p (tier + 1)) >>= chainFrom tier (climb p (tier + 1)) :=
    (bind_assoc p _ _).symm
  _ = chained tier (climb p (tier + 1)) := by
    rw [← climb_eq]
    rfl

/-- No operator binds more tightly than products do. -/
theorem climb_five (h : Advances p) : climb p 5 = p := by
  have hpure : climbFrom p 5 = pure := by
    funext left c
    refine climbFrom_stop h fun t op _ _ => ⟨Nat.lt_succ_of_le op.tier_le_four, rfl⟩
  rw [climb_eq, hpure, bind_pure]

/-- Each tier is read by climbing from it, whatever reads the primary expressions. -/
theorem climb_eq_tiers (h : Advances p) :
    climb p 4 = multiplicative p ∧ climb p 3 = additive p ∧ climb p 2 = relational p ∧
      climb p 1 = equality p := by
  have h₄ : climb p 4 = multiplicative p := by rw [climb_eq_chained h, climb_five h]; rfl
  have h₃ : climb p 3 = additive p := by rw [climb_eq_chained h, h₄]; rfl
  have h₂ : climb p 2 = relational p := by rw [climb_eq_chained h, h₃]; rfl
  have h₁ : climb p 1 = equality p := by rw [climb_eq_chained h, h₂]; rfl
  exact ⟨h₄, h₃, h₂, h₁⟩

end

/-- The chain of tiers is one climbing loop. From any state and with any limit of nesting the two
read the same tree or fail with the same error, and leave the same state behind. -/
theorem tiers_eq_climb (maxDepth : Int) :
    within maxDepth equality = within maxDepth (climb · 1) ∧
      within maxDepth relational = within maxDepth (climb · 2) ∧
      within maxDepth additive = within maxDepth (climb · 3) ∧
      within maxDepth multiplicative = within maxDepth (climb · 4) := by
  have htiers := fun room => climb_eq_tiers (Advances.primary room)
  refine ⟨?_, ?_, ?_, ?_⟩ <;> funext c <;> unfold within
  · exact congrFun (htiers _).2.2.2.symm c
  · exact congrFun (htiers _).2.2.1.symm c
  · exact congrFun (htiers _).2.1.symm c
  · exact congrFun (htiers _).1.symm c

end ExprFront.Parse
