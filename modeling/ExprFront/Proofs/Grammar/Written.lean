import ExprFront.Proofs.Grammar.Exact
import Mathlib.Data.List.Forall2

/-!
# Written trees

A block is written as tokens with the parentheses that its shape needs, and with any number of
others around the expressions in it. Whatever their number, parsing gives the block back. What a
parser gets to see of a tree is a derivation: the tokens of every expression derive it at the tier of
its operator.
-/

namespace ExprFront

/-! ## The tokens of operators -/

/-- The kind of token that writes a binary operator. -/
def BinaryOp.kind : BinaryOp → TokenKind
  | .math .add => .plus
  | .math .sub => .minus
  | .math .mul => .star
  | .math .div => .slash
  | .compare .equal => .equalEqual
  | .compare .notEqual => .bangEqual
  | .compare .greater => .greater
  | .compare .greaterEqual => .greaterEqual
  | .compare .less => .less
  | .compare .lessEqual => .lessEqual

@[simp] theorem BinaryOp.binaryOp?_kind (op : BinaryOp) : op.kind.binaryOp? = some op := by
  rcases op with (_ | _ | _ | _) | (_ | _ | _ | _ | _ | _) <;> rfl

/-- The kind of token that writes an assignment with an operator. -/
def MathOp.assignKind : MathOp → TokenKind
  | .add => .plusEqual
  | .sub => .minusEqual
  | .mul => .starEqual
  | .div => .slashEqual

@[simp] theorem MathOp.assignOp?_assignKind (op : MathOp) : op.assignKind.assignOp? = some op := by
  cases op <;> rfl

namespace Node

/-! ## Writing -/

/-- The tier of a tree: that of its operator if it is a binary operation, and else that of primary
expressions. -/
def tier : Node → Nat
  | .math _ op _ _ => (BinaryOp.math op).tier
  | .compare _ op _ _ => (BinaryOp.compare op).tier
  | _ => 5

/-- Do the tokens of the tree end in an assignment or a choice that no parentheses, braces or call
within them enclose? An operand that is written in parentheses encloses its own. -/
def endsOpen : Node → Bool
  | .assign _ _ _ | .mathAssign _ _ _ _ | .ifElse _ _ _ _ => true
  | .negate _ operand | .not _ operand => decide (operand.tier = 5) && operand.endsOpen
  | .math _ op _ right => decide ((BinaryOp.math op).tier < right.tier) && right.endsOpen
  | .compare _ op _ right => decide ((BinaryOp.compare op).tier < right.tier) && right.endsOpen
  | _ => false

/-- Does the tree need parentheses to be a left operand of the operator? -/
def groupsLeft (op : BinaryOp) (left : Node) : Bool :=
  decide (left.tier < op.tier) || left.endsOpen

/-- Does the tree need parentheses to be a right operand of the operator? -/
def groupsRight (op : BinaryOp) (right : Node) : Bool :=
  decide (right.tier ≤ op.tier)

/-- Does the tree need parentheses to be negated? -/
def groupsUnary (operand : Node) : Bool :=
  decide (operand.tier ≠ 5)

end Node

/-- Tokens within some pairs of parentheses. -/
def grouped (pairs : Nat) (tokens : List Token) : List Token :=
  List.replicate pairs (.bare .leftParen) ++ tokens ++ List.replicate pairs (.bare .rightParen)

/-- How many pairs of parentheses are written around each expression of a tree beyond those that it
needs. An expression is found by the way down to it: which child to take, again and again. -/
abbrev Extra := List Nat → Nat

/-- The numbers for what is within a child. -/
def Extra.within (extra : Extra) (child : Nat) : Extra :=
  fun path => extra (child :: path)

/-- Rows of tokens with one of a kind between them. -/
def separated (kind : TokenKind) (rows : List (List Token)) : List Token :=
  [Token.bare kind].intercalate rows

namespace Node

mutual

/-- The tokens of a tree, without parentheses around it. -/
def write (extra : Extra) : Node → List Token
  | .anyNode _ | .anyExpression _ => []
  | .number _ value => [.bare .number value]
  | .bool _ value => [.bare (if value then .trueWord else .falseWord)]
  | .var _ name => [.bare .identifier name]
  | .userVar _ name => [.bare .dollar, .bare .identifier name]
  | .block _ exprs ret =>
    .bare .leftBrace :: (separated .semicolon (writeAll extra 0 exprs ++
      [grouped (extra [exprs.length]) (write (extra.within exprs.length) ret)]) ++
      [.bare .rightBrace])
  | .ifElse _ cond yes no =>
    .bare .ifWord :: .bare .leftParen :: (grouped (extra [0]) (write (extra.within 0) cond) ++
      .bare .rightParen :: (grouped (extra [1]) (write (extra.within 1) yes) ++
        .bare .elseWord :: grouped (extra [2]) (write (extra.within 2) no)))
  | .call _ name args =>
    .bare .identifier name :: .bare .leftParen ::
      (separated .comma (writeAll extra 0 args) ++ [.bare .rightParen])
  | .assign _ name value =>
    .bare .dollar :: .bare .identifier name :: .bare .equal ::
      grouped (extra [0]) (write (extra.within 0) value)
  | .mathAssign _ op name value =>
    .bare .dollar :: .bare .identifier name :: .bare op.assignKind ::
      grouped (extra [0]) (write (extra.within 0) value)
  | .negate _ operand =>
    .bare .minus :: grouped (operand.groupsUnary.toNat + extra [0]) (write (extra.within 0) operand)
  | .not _ operand =>
    .bare .bang :: grouped (operand.groupsUnary.toNat + extra [0]) (write (extra.within 0) operand)
  | .math _ op left right =>
    grouped ((left.groupsLeft (.math op)).toNat + extra [0]) (write (extra.within 0) left) ++
      .bare (BinaryOp.math op).kind ::
        grouped ((right.groupsRight (.math op)).toNat + extra [1]) (write (extra.within 1) right)
  | .compare _ op left right =>
    grouped ((left.groupsLeft (.compare op)).toNat + extra [0]) (write (extra.within 0) left) ++
      .bare (BinaryOp.compare op).kind ::
        grouped ((right.groupsRight (.compare op)).toNat + extra [1])
          (write (extra.within 1) right)

/-- The tokens of each of some trees, the first of which is the child of this number. -/
def writeAll (extra : Extra) (child : Nat) : List Node → List (List Token)
  | [] => []
  | tree :: rest =>
    grouped (extra [child]) (write (extra.within child) tree) :: writeAll extra (child + 1) rest

end

/-- The tokens of a block without its braces. -/
def writeBody (extra : Extra) (exprs : List Node) (ret : Node) : List Token :=
  separated .semicolon (writeAll extra 0 exprs ++
    [grouped (extra [exprs.length]) (write (extra.within exprs.length) ret)])

end Node

/-! ## Written expressions are derived -/

@[simp] theorem grouped_zero (ts : List Token) : grouped 0 ts = ts := by
  simp [grouped]

theorem grouped_succ (pairs : Nat) (ts : List Token) :
    grouped (pairs + 1) ts = .bare .leftParen :: (grouped pairs ts ++ [.bare .rightParen]) := by
  unfold grouped
  rw [List.replicate_succ, List.replicate_succ']
  simp only [List.cons_append, List.append_assoc]

/-- Parentheses make any expression a primary one. Without them it has to be of the tier already,
and it is as open as it was. -/
theorem Derives.grouped {ts : List Token} {tier tier' : Nat} {isOpen : Bool} {e : Node}
    (h : Derives ts (.expression tier isOpen e)) (pairs : Nat) (hone : 1 ≤ tier')
    (htier : pairs = 0 → tier' ≤ tier) (hprimary : 1 ≤ tier ∧ tier' ≤ 5) :
    ∃ isOpen', Derives (grouped pairs ts) (.expression tier' isOpen' e) ∧
      (isOpen' = true → pairs = 0 ∧ isOpen = true) := by
  -- what is within the innermost pair is of the loosest tier, and each pair is primary
  have hgroup : ∀ n, Derives (ExprFront.grouped (n + 1) ts) (.expression 5 false e) := by
    intro n
    induction n with
    | zero =>
      rw [grouped_succ, grouped_zero]
      exact .group rfl (h.loosen (Nat.le_refl 1) hprimary.1) rfl
    | succ n ih =>
      rw [grouped_succ]
      exact .group rfl (ih.loosen (by decide) (by decide)) rfl
  cases pairs with
  | zero =>
    rw [grouped_zero]
    exact ⟨isOpen, h.loosen hone (htier rfl), fun ho => ⟨rfl, ho⟩⟩
  | succ n => exact ⟨false, (hgroup n).loosen hone hprimary.2, by simp⟩

/-- The tokens are an expression of the loosest tier. -/
def IsExpression (ts : List Token) (tree : Node) : Prop :=
  ∃ isOpen, Derives ts (.expression 1 isOpen tree)

section

variable {rows : List (List Token)} {ts : List Token} {trees : List Node} {last : Node}

theorem separated_append_cons (kind : TokenKind) (row : List Token) (rows : List (List Token))
    (ts : List Token) :
    separated kind (row :: (rows ++ [ts])) = row ++ .bare kind :: separated kind (rows ++ [ts]) := by
  unfold separated
  rw [List.intercalate_cons_of_ne_nil (by simp)]
  simp

/-- Expressions with semicolons between them are statements. -/
theorem Derives.separated_semicolon (h : List.Forall₂ IsExpression rows trees)
    (hlast : IsExpression ts last) :
    Derives (separated .semicolon (rows ++ [ts])) (.statements trees last) := by
  induction h with
  | nil =>
    obtain ⟨isOpen, he⟩ := hlast
    rw [List.nil_append, separated, List.intercalate_singleton]
    exact he.last
  | cons hrow _ ih =>
    obtain ⟨isOpen, he⟩ := hrow
    rw [List.cons_append, separated_append_cons]
    exact he.semicolon rfl ih

/-- Expressions with commas between them are arguments. -/
theorem Derives.separated_comma (h : List.Forall₂ IsExpression rows trees) :
    Derives (separated .comma rows) (.arguments trees) := by
  induction h with
  | nil => exact .noArguments
  | @cons row e rows trees hrow hrows ih =>
    obtain ⟨isOpen, he⟩ := hrow
    -- the last argument has no comma behind it
    cases rows with
    | nil =>
      cases hrows
      rw [separated, List.intercalate_singleton]
      exact he.lastArgument
    | cons row' rows' =>
      unfold separated at ih ⊢
      rw [List.intercalate_cons_cons]
      simpa using he.comma (s := .bare .comma) rfl ih

end

namespace Node

theorem one_le_tier (tree : Node) : 1 ≤ tree.tier := by
  cases tree <;> first | exact BinaryOp.one_le_tier _ | exact Nat.le_add_left 1 4

/-- The tokens derive the tree at its tier, and they are open at their end only if the tree is. -/
def IsDerivedFrom (tree : Node) (ts : List Token) : Prop :=
  ∃ isOpen, Derives ts (.expression tree.tier isOpen tree) ∧ (isOpen = true → tree.endsOpen = true)

variable {tree left right operand : Node} {ts : List Token}

/-- Within any parentheses, or none, a tree stands where the loosest tier is asked for. -/
theorem IsDerivedFrom.isExpression (h : tree.IsDerivedFrom ts) (pairs : Nat) :
    IsExpression (grouped pairs ts) tree := by
  obtain ⟨isOpen, hderives, -⟩ := h
  obtain ⟨isOpen', hgrouped, -⟩ := hderives.grouped pairs (Nat.le_refl 1)
    (fun _ => tree.one_le_tier) ⟨tree.one_le_tier, by decide⟩
  exact ⟨isOpen', hgrouped⟩

/-- With the parentheses that it needs, a tree stands where a primary expression is asked for. -/
theorem IsDerivedFrom.asOperand (h : operand.IsDerivedFrom ts) (extra : Nat) :
    ∃ isOpen, Derives (grouped (operand.groupsUnary.toNat + extra) ts)
        (.expression 5 isOpen operand) ∧
      (isOpen = true → (decide (operand.tier = 5) && operand.endsOpen) = true) := by
  obtain ⟨isOpen, hderives, hopen⟩ := h
  have htier : operand.groupsUnary.toNat + extra = 0 → operand.tier = 5 := by
    intro hzero
    simpa [groupsUnary, Bool.toNat_eq_zero] using Nat.eq_zero_of_add_eq_zero_right hzero
  obtain ⟨isOpen', hgrouped, hopen'⟩ := hderives.grouped (operand.groupsUnary.toNat + extra)
    (by decide) (fun hzero => Nat.le_of_eq (htier hzero).symm) ⟨operand.one_le_tier, Nat.le_refl 5⟩
  -- an open operand has no parentheses around it, so it needs none
  refine ⟨isOpen', hgrouped, fun ho => ?_⟩
  obtain ⟨hzero, ho'⟩ := hopen' ho
  simp [htier hzero, hopen ho']

theorem IsDerivedFrom.asLeft (h : left.IsDerivedFrom ts) (op : BinaryOp) (extra : Nat) :
    Derives (grouped ((left.groupsLeft op).toNat + extra) ts) (.expression op.tier false left) := by
  obtain ⟨isOpen, hderives, hopen⟩ := h
  have hneed : (left.groupsLeft op).toNat + extra = 0 →
      op.tier ≤ left.tier ∧ left.endsOpen = false := by
    intro hzero
    simpa [groupsLeft, Bool.toNat_eq_zero] using Nat.eq_zero_of_add_eq_zero_right hzero
  obtain ⟨isOpen', hgrouped, hopen'⟩ := hderives.grouped ((left.groupsLeft op).toNat + extra)
    op.one_le_tier (fun hzero => (hneed hzero).1)
    ⟨left.one_le_tier, Nat.le_succ_of_le op.tier_le_four⟩
  -- an open end would have asked for parentheses
  cases isOpen' with
  | false => exact hgrouped
  | true =>
    obtain ⟨hzero, ho⟩ := hopen' rfl
    rw [(hneed hzero).2] at hopen
    cases hopen ho

theorem IsDerivedFrom.asRight (h : right.IsDerivedFrom ts) (op : BinaryOp) (extra : Nat) :
    ∃ isOpen, Derives (grouped ((right.groupsRight op).toNat + extra) ts)
        (.expression (op.tier + 1) isOpen right) ∧
      (isOpen = true → (decide (op.tier < right.tier) && right.endsOpen) = true) := by
  obtain ⟨isOpen, hderives, hopen⟩ := h
  have htier : (right.groupsRight op).toNat + extra = 0 → op.tier < right.tier := by
    intro hzero
    simpa [groupsRight, Bool.toNat_eq_zero] using Nat.eq_zero_of_add_eq_zero_right hzero
  obtain ⟨isOpen', hgrouped, hopen'⟩ := hderives.grouped ((right.groupsRight op).toNat + extra)
    (Nat.le_add_left 1 op.tier) htier ⟨right.one_le_tier, Nat.succ_le_succ op.tier_le_four⟩
  refine ⟨isOpen', hgrouped, fun ho => ?_⟩
  obtain ⟨hzero, ho'⟩ := hopen' ho
  simp [htier hzero, hopen ho']

mutual

theorem write_derives {tree : Node} (extra : Extra) (h : tree.isConcrete = true) :
    tree.IsDerivedFrom (tree.write extra) := by
  cases tree <;> simp only [isConcrete, Bool.and_eq_true, Bool.false_eq_true] at h <;>
    unfold write
  case number p value => exact ⟨false, .number p rfl, by simp⟩
  case bool p value =>
    cases value with
    | true => exact ⟨false, .trueWord p rfl, by simp⟩
    | false => exact ⟨false, .falseWord p rfl, by simp⟩
  case var p name => exact ⟨false, .var p rfl, by simp⟩
  case userVar p name => exact ⟨false, .userVar p rfl rfl, by simp⟩
  case block p exprs ret =>
    have hbody := Derives.separated_semicolon (writeAll_derives extra 0 h.1)
      ((write_derives (extra.within exprs.length) h.2).isExpression (extra [exprs.length]))
    exact ⟨false, .block p rfl hbody rfl, by simp⟩
  case ifElse p cond yes no =>
    -- parentheses and words keep the parts apart, so each may be of the loosest tier
    obtain ⟨openCond, hcond⟩ := (write_derives (extra.within 0) h.1.1).isExpression (extra [0])
    obtain ⟨openYes, hyes⟩ := (write_derives (extra.within 1) h.1.2).isExpression (extra [1])
    obtain ⟨openNo, hno⟩ := (write_derives (extra.within 2) h.2).isExpression (extra [2])
    exact ⟨true, .ifElse p rfl rfl hcond rfl hyes rfl hno, by simp [endsOpen]⟩
  case call p name args =>
    have hargs := Derives.separated_comma (writeAll_derives extra 0 h.2)
    exact ⟨false, .call p rfl rfl hargs rfl, by simp⟩
  case assign p name value =>
    obtain ⟨isOpen, hvalue⟩ := (write_derives (extra.within 0) h.2).isExpression (extra [0])
    exact ⟨true, .assign p rfl rfl rfl hvalue, by simp [endsOpen]⟩
  case mathAssign p op name value =>
    obtain ⟨isOpen, hvalue⟩ := (write_derives (extra.within 0) h.2).isExpression (extra [0])
    exact ⟨true, .mathAssign p rfl rfl op.assignOp?_assignKind hvalue, by simp [endsOpen]⟩
  case negate p operand =>
    obtain ⟨isOpen, hoperand, hopen⟩ := (write_derives (extra.within 0) h).asOperand (extra [0])
    exact ⟨isOpen, .negate p rfl hoperand, hopen⟩
  case not p operand =>
    obtain ⟨isOpen, hoperand, hopen⟩ := (write_derives (extra.within 0) h).asOperand (extra [0])
    exact ⟨isOpen, .not p rfl hoperand, hopen⟩
  case math p op left right =>
    -- the operation is as open as its right operand
    have hleft := (write_derives (extra.within 0) h.1).asLeft (.math op) (extra [0])
    obtain ⟨isOpen, hright, hopen⟩ :=
      (write_derives (extra.within 1) h.2).asRight (.math op) (extra [1])
    exact ⟨isOpen, .binary p hleft (BinaryOp.binaryOp?_kind _) hright, hopen⟩
  case compare p op left right =>
    have hleft := (write_derives (extra.within 0) h.1).asLeft (.compare op) (extra [0])
    obtain ⟨isOpen, hright, hopen⟩ :=
      (write_derives (extra.within 1) h.2).asRight (.compare op) (extra [1])
    exact ⟨isOpen, .binary p hleft (BinaryOp.binaryOp?_kind _) hright, hopen⟩

theorem writeAll_derives {trees : List Node} (extra : Extra) (child : Nat)
    (h : isConcreteAll trees = true) :
    List.Forall₂ IsExpression (writeAll extra child trees) trees := by
  cases trees with
  | nil => exact .nil
  | cons tree rest =>
    simp only [isConcreteAll, Bool.and_eq_true] at h
    exact .cons ((write_derives (extra.within child) h.1).isExpression (extra [child]))
      (writeAll_derives extra (child + 1) h.2)

end

end Node

/-- Whatever parentheses are added, parsing the tokens of a block gives the block back. -/
theorem parse_writeBody (p : Position) (exprs : List Node) (ret : Node) (extra : Extra)
    (maxDepth : Int) (hconcrete : (Node.block p exprs ret).isConcrete = true)
    (hdepth : (Node.writeBody extra exprs ret).length ≤ maxDepth) :
    ∃ tree, parse maxDepth (Node.writeBody extra exprs ret) = .ok tree ∧
      tree.equals (.block p exprs ret) = true := by
  have hparts := hconcrete
  simp only [Node.isConcrete, Bool.and_eq_true] at hparts
  have hret := (Node.write_derives (extra.within exprs.length) hparts.2).isExpression
    (extra [exprs.length])
  have hbody := Derives.separated_semicolon (Node.writeAll_derives extra 0 hparts.1) hret
  obtain ⟨tree, hparse, halike⟩ := parse_of_isProgram ⟨p, exprs, ret, rfl, hbody⟩ hdepth
  exact ⟨tree, hparse, Node.equals_of_unplaced_eq halike hconcrete⟩

/-- In `(x * $a = x) + x` the parentheses keep the assignment from taking the sum. -/
theorem parse_writeBody_open_operand :
    let x : Node := .var .first (.text "x")
    let sum : Node :=
      .math .first .add (.math .first .mul x (.assign .first (.text "a") x)) x
    (Node.writeBody (fun _ => 0) [] sum).map Token.kind =
        [.leftParen, .identifier, .star, .dollar, .identifier, .equal, .identifier, .rightParen,
          .plus, .identifier] ∧
      ∃ tree, parse 10 (Node.writeBody (fun _ => 0) [] sum) = .ok tree ∧
        tree.equals (.block .first [] sum) = true := by
  intro x sum
  exact ⟨by decide, parse_writeBody .first [] sum (fun _ => 0) 10 (by decide) (by decide)⟩

end ExprFront
