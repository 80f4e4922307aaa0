import ExprFront.Proofs.Grammar.Phrase

/-!
# How programs go on

Behind complete statements stands a semicolon or a binary operator, whichever it is. An operator need
not take all of the last expression for its left operand: it belongs to the innermost place that is
loose enough for it, or that is open at its end.
-/

namespace ExprFront

theorem TokenKind.of_mem_continuation {kind : TokenKind} (h : kind ∈ continuation) :
    kind = .semicolon ∨ kind.binaryOp?.isSome = true := by
  cases kind <;> revert h <;> decide

/-- With the operator and a number behind the tokens they are a phrase of the same sort, unless the
phrase is too tight for the operator and closed. -/
def Phrase.Extends (tokens : List Token) (sign : Token) (op : BinaryOp) : Phrase → Prop
  | .expression tier isOpen _ => tier ≤ op.tier ∨ isOpen = true →
      ∃ isOpen' e, Derives (tokens ++ [sign, .bare .number]) (.expression tier isOpen' e)
  | .statements _ _ => ∃ exprs last,
      Derives (tokens ++ [sign, .bare .number]) (.statements exprs last)
  | .arguments _ => True

section

variable {tokens ts : List Token} {sign : Token} {op : BinaryOp} {e : Node} {exprs : List Node}
  {last : Node}

/-- A closed expression is the left operand of an operator of its tier. -/
theorem Derives.operator (h : Derives ts (.expression op.tier false e))
    (hop : sign.kind.binaryOp? = some op) :
    ∃ isOpen e', Derives (ts ++ [sign, .bare .number]) (.expression op.tier isOpen e') :=
  have hnumber : Derives [.bare .number] (.expression (op.tier + 1) false _) :=
    (Derives.number (t := .bare .number) .first rfl).loosen (Nat.le_add_left 1 _)
      (Nat.succ_le_succ op.tier_le_four)
  ⟨false, _, .binary .first h hop hnumber⟩

theorem Derives.extends {phrase : Phrase} (h : Derives tokens phrase)
    (hop : sign.kind.binaryOp? = some op) : phrase.Extends tokens sign op := by
  -- a closed primary expression is too tight for every operator
  have hprimary : ¬ (5 ≤ op.tier ∨ false = true) := by
    have hle := op.tier_le_four
    simp only [Bool.false_eq_true, or_false]
    omega
  induction h with
  | negate p ht he ih =>
    intro htier
    obtain ⟨isOpen, e, hderives⟩ := ih htier
    exact ⟨isOpen, _, .negate p ht hderives⟩
  | not p ht he ih =>
    intro htier
    obtain ⟨isOpen, e, hderives⟩ := ih htier
    exact ⟨isOpen, _, .not p ht hderives⟩
  | assign p hd hx hq he ih =>
    intro _
    obtain ⟨isOpen, e, hderives⟩ := ih (.inl op.one_le_tier)
    exact ⟨true, _, .assign p hd hx hq hderives⟩
  | mathAssign p hd hx hq he ih =>
    intro _
    obtain ⟨isOpen, e, hderives⟩ := ih (.inl op.one_le_tier)
    exact ⟨true, _, .mathAssign p hd hx hq hderives⟩
  | ifElse p hi hl hcond hr hyes hs hno ihcond ihyes ihno =>
    intro _
    obtain ⟨isOpen, e, hderives⟩ := ihno (.inl op.one_le_tier)
    exact ⟨true, _, by simpa using Derives.ifElse p hi hl hcond hr hyes hs hderives⟩
  | @looser ts tier isOpen e hone he ih =>
    intro htier
    by_cases htighter : tier + 1 ≤ op.tier ∨ isOpen = true
    · obtain ⟨isOpen', e', hderives⟩ := ih htighter
      exact ⟨isOpen', e', hderives.looser hone⟩
    -- the expression is closed and of the tier of the operator, which takes all of it
    · simp only [not_or, Bool.not_eq_true] at htighter
      obtain ⟨hlt, rfl⟩ := htighter
      obtain rfl : tier = op.tier := by
        simp only [Bool.false_eq_true, or_false] at htier
        omega
      exact (he.looser hone).operator hop
  | @binary ls rs t op' isOpen left right p hleft hop' hright ihleft ihright =>
    intro htier
    by_cases htighter : op'.tier + 1 ≤ op.tier ∨ isOpen = true
    · obtain ⟨isOpen', e', hderives⟩ := ihright htighter
      exact ⟨isOpen', _, by simpa using Derives.binary p hleft hop' hderives⟩
    · simp only [not_or, Bool.not_eq_true] at htighter
      obtain ⟨hlt, rfl⟩ := htighter
      have heq : op'.tier = op.tier := by
        simp only [Bool.false_eq_true, or_false] at htier
        omega
      have hwhole := Derives.binary p hleft hop' hright
      rw [heq] at hwhole ⊢
      exact hwhole.operator hop
  | last he ih =>
    obtain ⟨isOpen, e, hderives⟩ := ih (.inl op.one_le_tier)
    exact ⟨[], e, hderives.last⟩
  | semicolon he hs hrest ih ihrest =>
    obtain ⟨exprs, last, hderives⟩ := ihrest
    exact ⟨_, last, by simpa using he.semicolon hs hderives⟩
  | noArguments | lastArgument | comma => trivial
  | _ => exact fun htier => absurd htier hprimary

/-- One more expression can follow behind a semicolon. -/
theorem Derives.separate {phrase : Phrase} (h : Derives tokens phrase)
    (hsign : sign.kind = .semicolon) : ∀ exprs last, phrase = .statements exprs last →
      ∃ exprs' last', Derives (tokens ++ [sign, .bare .number]) (.statements exprs' last') := by
  have hnumber : Derives [.bare .number] (.statements [] _) :=
    ((Derives.number (t := .bare .number) .first rfl).loosen (Nat.le_refl 1) (by decide)).last
  induction h with
  | last he =>
    rintro _ _ ⟨⟩
    exact ⟨_, _, he.semicolon hsign hnumber⟩
  | semicolon he hs hrest ih ihrest =>
    rintro _ _ ⟨⟩
    obtain ⟨exprs, last, hderives⟩ := ihrest _ _ rfl
    exact ⟨_, last, by simpa using he.semicolon hs hderives⟩
  | _ => rintro _ _ ⟨⟩

/-- Every kind that continues a program does so behind any statements. -/
theorem Derives.continued (h : Derives tokens (.statements exprs last))
    (hsign : sign.kind ∈ TokenKind.continuation) :
    ∃ more exprs' last', Derives (tokens ++ sign :: more) (.statements exprs' last') := by
  obtain hsemicolon | hop := TokenKind.of_mem_continuation hsign
  · exact ⟨_, h.separate hsemicolon _ _ rfl⟩
  · obtain ⟨op, hop⟩ := Option.isSome_iff_exists.1 hop
    exact ⟨_, h.extends hop⟩

end

end ExprFront
