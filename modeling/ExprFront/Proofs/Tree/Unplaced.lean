import ExprFront.Tree.Node

/-!
# Trees without positions

Two trees are alike when only the positions of their nodes may differ. Equality of trees ignores
positions, so it cannot tell alike trees apart; it is reflexive on trees without undefined numbers.
-/

namespace ExprFront

/-- Is the payload anything but the undefined number? -/
def Payload.isDefined : Payload → Bool
  | .number .nan => false
  | _ => true

theorem Payload.equals_self {payload : Payload} (h : payload.isDefined = true) :
    payload.equals payload = true := by
  cases payload with
  | absent => rfl
  | text value => simp [equals]
  | number value =>
    rw [equals, Binary64.equals_self_iff]
    rintro rfl
    cases h

/-- The position that stands for none. -/
def Position.nowhere : Position := ⟨0, 0⟩

namespace Node

mutual

/-- A tree with the positions of all its nodes taken away. -/
def unplaced : Node → Node
  | .anyNode _ => .anyNode .nowhere
  | .anyExpression _ => .anyExpression .nowhere
  | .number _ value => .number .nowhere value
  | .bool _ value => .bool .nowhere value
  | .var _ name => .var .nowhere name
  | .userVar _ name => .userVar .nowhere name
  | .block _ exprs ret => .block .nowhere (unplacedAll exprs) (unplaced ret)
  | .ifElse _ cond yes no => .ifElse .nowhere (unplaced cond) (unplaced yes) (unplaced no)
  | .call _ name args => .call .nowhere name (unplacedAll args)
  | .assign _ name value => .assign .nowhere name (unplaced value)
  | .mathAssign _ op name value => .mathAssign .nowhere op name (unplaced value)
  | .negate _ operand => .negate .nowhere (unplaced operand)
  | .not _ operand => .not .nowhere (unplaced operand)
  | .math _ op left right => .math .nowhere op (unplaced left) (unplaced right)
  | .compare _ op left right => .compare .nowhere op (unplaced left) (unplaced right)

/-- Trees with all positions taken away. -/
def unplacedAll : List Node → List Node
  | [] => []
  | node :: rest => unplaced node :: unplacedAll rest

end

theorem unplacedAll_append (nodes nodes' : List Node) :
    unplacedAll (nodes ++ nodes') = unplacedAll nodes ++ unplacedAll nodes' := by
  induction nodes with
  | nil => rfl
  | cons node rest ih => simp only [List.cons_append, unplacedAll, ih]

@[simp] theorem unplaced_binary (p : Position) (op : BinaryOp) (left right : Node) :
    (binary p op left right).unplaced = binary .nowhere op left.unplaced right.unplaced := by
  cases op <;> simp only [binary, unplaced]

mutual

/-- Equality of trees does not look at positions. -/
theorem equals_unplaced (a b : Node) : a.unplaced.equals b.unplaced = a.equals b := by
  -- nodes of different classes are different with and without positions
  cases a <;> cases b <;> try rfl
  all_goals simp only [unplaced, equals, equals_unplaced, equalsAll_unplaced]

theorem equalsAll_unplaced (as bs : List Node) :
    equalsAll (unplacedAll as) (unplacedAll bs) = equalsAll as bs := by
  cases as <;> cases bs <;>
    simp only [unplacedAll, equalsAll, equals_unplaced, equalsAll_unplaced]

end

mutual

/-- There is nothing left to take away. -/
theorem unplaced_unplaced (tree : Node) : tree.unplaced.unplaced = tree.unplaced := by
  cases tree <;> simp only [unplaced, unplaced_unplaced, unplacedAll_unplacedAll]

theorem unplacedAll_unplacedAll (trees : List Node) :
    unplacedAll (unplacedAll trees) = unplacedAll trees := by
  cases trees with
  | nil => rfl
  | cons tree rest => simp only [unplacedAll, unplaced_unplaced, unplacedAll_unplacedAll]

end

/-! ## Trees that a parser can make -/

mutual

/-- Is the tree made of literals, variables and compound expressions alone, without undefined
numbers? -/
def isConcrete : Node → Bool
  | .anyNode _ => false
  | .anyExpression _ => false
  | .number _ value => value.isDefined
  | .bool _ _ => true
  | .var _ name => name.isDefined
  | .userVar _ name => name.isDefined
  | .block _ exprs ret => isConcreteAll exprs && isConcrete ret
  | .ifElse _ cond yes no => isConcrete cond && isConcrete yes && isConcrete no
  | .call _ name args => name.isDefined && isConcreteAll args
  | .assign _ name value => name.isDefined && isConcrete value
  | .mathAssign _ _ name value => name.isDefined && isConcrete value
  | .negate _ operand => isConcrete operand
  | .not _ operand => isConcrete operand
  | .math _ _ left right => isConcrete left && isConcrete right
  | .compare _ _ left right => isConcrete left && isConcrete right

/-- Are all the trees concrete? -/
def isConcreteAll : List Node → Bool
  | [] => true
  | node :: rest => isConcrete node && isConcreteAll rest

end

theorem isConcreteAll_append (nodes nodes' : List Node) :
    isConcreteAll (nodes ++ nodes') = (isConcreteAll nodes && isConcreteAll nodes') := by
  induction nodes with
  | nil => rfl
  | cons node rest ih => simp only [List.cons_append, isConcreteAll, ih, Bool.and_assoc]

mutual

theorem equals_self {tree : Node} (h : tree.isConcrete = true) : tree.equals tree = true := by
  cases tree <;> simp only [isConcrete, Bool.and_eq_true] at h <;>
    simp only [equals, Bool.and_eq_true, beq_self_eq_true, true_and]
  case number => exact Payload.equals_self h
  case var => exact Payload.equals_self h
  case userVar => exact Payload.equals_self h
  case block => exact ⟨equalsAll_self h.1, equals_self h.2⟩
  case ifElse => exact ⟨⟨equals_self h.1.1, equals_self h.1.2⟩, equals_self h.2⟩
  case call => exact ⟨Payload.equals_self h.1, equalsAll_self h.2⟩
  case assign => exact ⟨Payload.equals_self h.1, equals_self h.2⟩
  case mathAssign => exact ⟨Payload.equals_self h.1, equals_self h.2⟩
  case negate => exact equals_self h
  case not => exact equals_self h
  case math => exact ⟨equals_self h.1, equals_self h.2⟩
  case compare => exact ⟨equals_self h.1, equals_self h.2⟩

theorem equalsAll_self {trees : List Node} (h : isConcreteAll trees = true) :
    equalsAll trees trees = true := by
  cases trees with
  | nil => rfl
  | cons tree rest =>
    simp only [isConcreteAll, Bool.and_eq_true] at h
    simp only [equalsAll, Bool.and_eq_true]
    exact ⟨equals_self h.1, equalsAll_self h.2⟩

end

/-- A tree equals the concrete trees that it is alike. -/
theorem equals_of_unplaced_eq {a b : Node} (h : a.unplaced = b.unplaced)
    (hb : b.isConcrete = true) : a.equals b = true := by
  rw [← equals_unplaced, h, equals_unplaced]
  exact equals_self hb

end Node

end ExprFront
