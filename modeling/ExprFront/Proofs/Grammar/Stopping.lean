import ExprFront.Proofs.Grammar.Chains
import ExprFront.Proofs.Parse.Climbing
import ExprFront.Proofs.Parse.Settling

/-!
# Where the steps of the grammar stop

The loop of a tier ends where no operator of the tier is ahead, and its last operand has ended where
no tighter one is. So behind an expression there is no operator left, and behind a block no semicolon
either. An assignment or a choice ends in an expression, and the same holds behind it, whatever signs
are in front; only parentheses around it let an operator follow.
-/

namespace ExprFront

/-! ## Tokens that a step does not stop at -/

/-- The kinds that stand for operators of a tier or a tighter one. -/
def TokenKind.operatorsFrom (tier : Nat) : List TokenKind :=
  (binaryOps.filter fun entry => tier ≤ entry.2.tier).map (·.1)

/-- Every operator is of the loosest tier or a tighter one. -/
theorem TokenKind.continuation_eq : continuation = .semicolon :: operatorsFrom 1 := rfl

theorem TokenKind.exists_of_mem_operatorsFrom {kind : TokenKind} {tier : Nat}
    (h : kind ∈ operatorsFrom tier) : ∃ op, kind.binaryOp? = some op ∧ tier ≤ op.tier := by
  obtain ⟨⟨_, op⟩, hentry, rfl⟩ := List.mem_map.1 h
  obtain ⟨hmem, htier⟩ := List.mem_filter.1 hentry
  refine ⟨op, ?_, of_decide_eq_true htier⟩
  -- no kind stands for two operators
  have hlookup : ∀ entry ∈ binaryOps, entry.1.binaryOp? = some entry.2 := by decide
  exact hlookup _ hmem

example : TokenKind.operatorsFrom 3 = [.plus, .minus, .star, .slash] := by decide

namespace Cursor

theorem check_eq_false_iff {c : Cursor} {kinds : List TokenKind} :
    c.check kinds = false ↔ ∀ t, c.current? = some t → t.kind ∉ kinds := by
  cases hc : c.current? <;> simp [check, hc]

theorem check_cons (c : Cursor) (kind : TokenKind) (kinds : List TokenKind) :
    c.check (kind :: kinds) = (c.check [kind] || c.check kinds) := by
  cases hc : c.current? <;> simp [check, hc]

/-- Where an expression of a tier stops, an operator of the tier or a tighter one is not ahead. -/
theorem check_operatorsFrom {c : Cursor} {tier : Nat} {isOpen : Bool}
    (h : Stops tier isOpen c.current?) : c.check (TokenKind.operatorsFrom tier) = false := by
  refine check_eq_false_iff.2 fun t ht hmem => ?_
  obtain ⟨op, hop, htier⟩ := TokenKind.exists_of_mem_operatorsFrom hmem
  exact absurd (h t op ht hop).1 (Nat.not_lt.2 htier)

end Cursor

/-! ## Assignments and choices -/

/-- Is a tree that of an assignment or a choice, perhaps with signs in front? -/
def Node.isOpenForm : Node → Bool
  | .negate _ e | .not _ e => e.isOpenForm
  | .assign _ _ _ | .mathAssign _ _ _ _ | .ifElse _ _ _ _ => true
  | _ => false

/-- Do tokens begin with an opening parenthesis, perhaps with signs in front? -/
def beginsGrouped : List Token → Bool
  | [] => false
  | t :: ts =>
    match t.kind with
    | .minus | .bang => beginsGrouped ts
    | .leftParen => true
    | _ => false

/-- A primary expression that stands for an assignment or a choice is open, unless parentheses
enclose it. -/
theorem Derives.isOpen_of_isOpenForm {ts : List Token} {phrase : Phrase} (h : Derives ts phrase)
    (rest : List Token) : ∀ isOpen e, phrase = .expression 5 isOpen e → e.isOpenForm = true →
      beginsGrouped (ts ++ rest) = false → isOpen = true := by
  induction h with
  | negate p ht he ih =>
    rintro _ _ ⟨⟩ hform hgrouped
    simp only [List.cons_append, beginsGrouped, ht] at hgrouped
    exact ih _ _ rfl hform hgrouped
  | not p ht he ih =>
    rintro _ _ ⟨⟩ hform hgrouped
    simp only [List.cons_append, beginsGrouped, ht] at hgrouped
    exact ih _ _ rfl hform hgrouped
  | group hl he hr =>
    rintro _ _ ⟨⟩ - hgrouped
    simp [beginsGrouped, hl] at hgrouped
  | looser htier he ih =>
    rintro _ _ ⟨⟩
    exact absurd he.tier_le_five (by decide)
  | @binary ls rs t op isOpen left right p hleft hop hright =>
    intro _ _ hphrase
    have htier : op.tier = 5 := by
      injection hphrase
    exact absurd op.tier_le_four (by omega)
  | assign p hd hx hq he => rintro _ _ ⟨⟩ - -; rfl
  | mathAssign p hd hx hq he => rintro _ _ ⟨⟩ - -; rfl
  | ifElse p hi => rintro _ _ ⟨⟩ - -; rfl
  | number p ht => rintro _ _ ⟨⟩ ⟨⟩
  | trueWord p ht => rintro _ _ ⟨⟩ ⟨⟩
  | falseWord p ht => rintro _ _ ⟨⟩ ⟨⟩
  | var p ht => rintro _ _ ⟨⟩ ⟨⟩
  | call p ht hl hargs hr => rintro _ _ ⟨⟩ ⟨⟩
  | userVar p hd hx => rintro _ _ ⟨⟩ ⟨⟩
  | block p hl hbody hr => rintro _ _ ⟨⟩ ⟨⟩
  | _ => rintro _ _ ⟨⟩

namespace Parse

variable {p : Parse Node} {c c' : Cursor} {tree : Node}

/-- Behind an assignment or a choice that no parentheses enclose there is no operator. -/
theorem primary_stops {room : Nat} (h : Parse.primary room c = .ok tree c')
    (hform : tree.isOpenForm = true) (hgrouped : beginsGrouped c.ahead = false) :
    c'.check (TokenKind.operatorsFrom 1) = false := by
  have hmeets := (Tracks.primary room c).meets
  rw [h] at hmeets
  obtain ⟨read, hread, isOpen, hderives, hstops⟩ := hmeets
  rw [hread] at hgrouped
  obtain rfl := hderives.isOpen_of_isOpenForm c'.ahead _ _ rfl hform hgrouped
  exact Cursor.check_operatorsFrom (hstops.of_open 1 true)

/-! ## Expressions and blocks -/

theorem expression_stops (h : Advances p) (hrun : expression p c = .ok tree c') :
    c'.check (TokenKind.operatorsFrom 1) = false := by
  rw [expression, ← (climb_eq_tiers h).2.2.2] at hrun
  exact Cursor.check_operatorsFrom (climb_stops h hrun)

theorem accept_none {kinds : List TokenKind} (h : accept kinds c = .ok none c') :
    c' = c ∧ c.check kinds = false := by
  obtain ⟨passed, ahead, depth⟩ := c
  cases ahead with
  | nil =>
    cases h
    exact ⟨rfl, rfl⟩
  | cons t rest =>
    by_cases ht : t.kind ∈ kinds
    · cases h.symm.trans (acceptAs_some (a := t) rfl (by simp [ht]))
    · cases h.symm.trans (acceptAs_none (t := t) rfl (by simp [ht]))
      exact ⟨rfl, by simpa [Cursor.check, Cursor.current?] using ht⟩

/-- Statements go on while there are semicolons, and each ends where no operator is ahead. -/
theorem statements_stop (h : Advances p) {parts : List Node × Node} {c : Cursor}
    (hrun : statements p c = .ok parts c') : c'.check TokenKind.continuation = false := by
  rw [statements_eq h] at hrun
  obtain ⟨e, c₁, he, hrun⟩ := exists_of_bind_ok hrun
  obtain ⟨s, c₂, hs, hrun⟩ := exists_of_bind_ok hrun
  rcases s with _ | s
  · cases hrun
    obtain ⟨rfl, hsemicolon⟩ := accept_none hs
    rw [TokenKind.continuation_eq, Cursor.check_cons, hsemicolon, expression_stops h he]
    rfl
  -- induction on the tokens ahead: a statement and its semicolon have gone
  · obtain ⟨parts, c₃, hrest, hrun⟩ := exists_of_bind_ok hrun
    cases hrun
    have k₁ : c₁.ahead.length < c.ahead.length := h.expression _ _ _ he
    have k₂ : c₂.ahead.length ≤ c₁.ahead.length := Keeps.accept _ _ _ _ hs
    exact statements_stop h hrest
termination_by c.ahead.length

theorem blockBody_stops (h : Advances p) (hrun : blockBody p c = .ok tree c') :
    c'.check TokenKind.continuation = false := by
  obtain ⟨_, _, ⟨⟩, hrun⟩ := exists_of_bind_ok hrun
  obtain ⟨parts, c₁, hs, hrun⟩ := exists_of_bind_ok hrun
  cases hrun
  exact statements_stop h hs

/-- Wherever it is called, a step for a tier of operators stops only where no operator of the tier or a
tighter one is ahead; for an expression that is no operator at all, and for the body of a block no
semicolon either. An assignment or a choice that is read as a primary expression, with any signs in
front but not within parentheses, has no operator behind it. -/
theorem steps_stop (maxDepth : Int) (c c' : Cursor) (tree : Node) :
    (within maxDepth multiplicative c = .ok tree c' → c'.check (TokenKind.operatorsFrom 4) = false) ∧
      (within maxDepth additive c = .ok tree c' → c'.check (TokenKind.operatorsFrom 3) = false) ∧
      (within maxDepth relational c = .ok tree c' → c'.check (TokenKind.operatorsFrom 2) = false) ∧
      (within maxDepth equality c = .ok tree c' → c'.check (TokenKind.operatorsFrom 1) = false) ∧
      (within maxDepth expression c = .ok tree c' →
        c'.check (binaryOps.map (·.1)) = false) ∧
      (within maxDepth blockBody c = .ok tree c' → c'.check TokenKind.continuation = false) ∧
      (within maxDepth id c = .ok tree c' → tree.isOpenForm = true →
        beginsGrouped c.ahead = false → c'.check (binaryOps.map (·.1)) = false) := by
  have ha := Advances.primary (c.room maxDepth)
  obtain ⟨h₄, h₃, h₂, h₁⟩ := climb_eq_tiers ha
  refine ⟨fun h => ?_, fun h => ?_, fun h => ?_, fun h => ?_, expression_stops ha,
    blockBody_stops ha, primary_stops⟩ <;> rw [within_apply] at h
  · exact Cursor.check_operatorsFrom (climb_stops ha (h₄ ▸ h))
  · exact Cursor.check_operatorsFrom (climb_stops ha (h₃ ▸ h))
  · exact Cursor.check_operatorsFrom (climb_stops ha (h₂ ▸ h))
  · exact Cursor.check_operatorsFrom (climb_stops ha (h₁ ▸ h))

/-- The product in `a * b + c` stops at the sum that it belongs to, and the assignment in `(-$x = a)`,
a sign in front, at the parenthesis. -/
theorem steps_stop_signs :
    let name (x : String) : Token := .bare .identifier (.text x)
    let var (x : String) : Node := .var .first (.text x)
    let product := [name "a", .bare .star, name "b"]
    let assignment := [.bare .minus, .bare .dollar, name "x", .bare .equal, name "a"]
    let c := Cursor.ofTokens (product ++ [.bare .plus, name "c"])
    let c' := c.over product [.bare .plus, name "c"]
    let d := Cursor.ofTokens (assignment ++ [.bare .rightParen])
    let d' := d.over assignment [.bare .rightParen]
    let left : Node := .math .first .mul (var "a") (var "b")
    let tree : Node := .negate .first (.assign .first (.text "x") (var "a"))
    (within 1 multiplicative c = .ok left c' ∧ c'.check (TokenKind.operatorsFrom 4) = false) ∧
    within 3 id d = .ok tree d' ∧ tree.isOpenForm = true ∧ beginsGrouped d.ahead = false ∧
      d'.check (binaryOps.map (·.1)) = false := by
  intro name var product assignment c c' d d' left tree
  have hproduct : within 1 multiplicative c = .ok left c' := rfl
  have hassignment : within 3 id d = .ok tree d' := rfl
  have hgrouped : beginsGrouped d.ahead = false := rfl
  have hstops := (steps_stop 1 c c' left).1 hproduct
  have hstops' := (steps_stop 3 d d' tree).2.2.2.2.2.2 hassignment rfl hgrouped
  exact ⟨⟨hproduct, hstops⟩, hassignment, rfl, hgrouped, hstops'⟩

/-- The assignment in `($x = a) + b` is followed by an operator, since it stands within parentheses. -/
example :
    let name (x : String) : Token := .bare .identifier (.text x)
    let group := [.bare .leftParen, .bare .dollar, name "x", .bare .equal, name "a", .bare .rightParen]
    let rest := [.bare .plus, name "b"]
    let c := Cursor.ofTokens (group ++ rest)
    within 3 id c = .ok (.assign .first (.text "x") (.var .first (.text "a"))) (c.over group rest) ∧
      beginsGrouped c.ahead = true := ⟨rfl, rfl⟩

end Parse

end ExprFront
