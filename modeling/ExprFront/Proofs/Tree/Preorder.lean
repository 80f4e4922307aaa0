import ExprFront.Tree.Node

/-!
# Document order

The nodes of a tree in the order in which they are written: a node first, then what is below each of
its children. The part of this order that is below a node is the order of the node's own tree.
-/

namespace ExprFront.Node

/-- The children of a node in the order of its fields. -/
def children : Node → List Node
  | .block _ exprs ret => exprs ++ [ret]
  | .ifElse _ cond yes no => [cond, yes, no]
  | .call _ _ args => args
  | .assign _ _ value | .mathAssign _ _ _ value => [value]
  | .negate _ operand | .not _ operand => [operand]
  | .math _ _ left right | .compare _ _ left right => [left, right]
  | _ => []

/-- The left operand of a binary operation. -/
def leftOperand? : Node → Option Node
  | .math _ _ left _ | .compare _ _ left _ => some left
  | _ => none

@[simp] theorem children_binary (p : Position) (op : BinaryOp) (left right : Node) :
    (binary p op left right).children = [left, right] := by
  cases op <;> rfl

@[simp] theorem leftOperand?_binary (p : Position) (op : BinaryOp) (left right : Node) :
    (binary p op left right).leftOperand? = some left := by
  cases op <;> rfl

theorem sizeOf_lt_of_mem_children {node child : Node} (h : child ∈ node.children) :
    sizeOf child < sizeOf node := by
  cases node <;> simp only [children, List.mem_append, List.mem_cons, List.not_mem_nil,
    or_false] at h
  case block p exprs ret =>
    obtain hexpr | rfl := h
    · have := List.sizeOf_lt_of_mem hexpr
      simp only [block.sizeOf_spec]
      omega
    · simp only [block.sizeOf_spec]
      omega
  case call p name args =>
    have := List.sizeOf_lt_of_mem h
    simp only [call.sizeOf_spec]
    omega
  all_goals
    obtain rfl | rfl | rfl := h <;> simp <;> omega

/-- What holds of a node whenever it holds of its children holds of every node. -/
@[elab_as_elim]
theorem children_induction {motive : Node → Prop}
    (node : ∀ node : Node, (∀ child ∈ node.children, motive child) → motive node)
    (tree : Node) : motive tree :=
  node tree fun child _ => children_induction node child
termination_by sizeOf tree
decreasing_by exact sizeOf_lt_of_mem_children (by assumption)

mutual

/-- A node and all that are below it, in document order. -/
def preorder : Node → List Node
  | .block p exprs ret => .block p exprs ret :: (preorderAll exprs ++ preorder ret)
  | .ifElse p cond yes no =>
    .ifElse p cond yes no :: (preorder cond ++ preorder yes ++ preorder no)
  | .call p name args => .call p name args :: preorderAll args
  | .assign p name value => .assign p name value :: preorder value
  | .mathAssign p op name value => .mathAssign p op name value :: preorder value
  | .negate p operand => .negate p operand :: preorder operand
  | .not p operand => .not p operand :: preorder operand
  | .math p op left right => .math p op left right :: (preorder left ++ preorder right)
  | .compare p op left right => .compare p op left right :: (preorder left ++ preorder right)
  | leaf => [leaf]

/-- The nodes of several trees, one tree after the other. -/
def preorderAll : List Node → List Node
  | [] => []
  | node :: rest => preorder node ++ preorderAll rest

end

theorem preorderAll_append (nodes nodes' : List Node) :
    preorderAll (nodes ++ nodes') = preorderAll nodes ++ preorderAll nodes' := by
  induction nodes with
  | nil => rfl
  | cons node rest ih => simp only [List.cons_append, preorderAll, ih, List.append_assoc]

theorem preorder_eq (node : Node) : node.preorder = node :: preorderAll node.children := by
  cases node <;> simp [preorder, children, preorderAll, preorderAll_append]

theorem mem_preorderAll {nodes : List Node} {x : Node} :
    x ∈ preorderAll nodes ↔ ∃ node ∈ nodes, x ∈ node.preorder := by
  induction nodes with
  | nil => simp [preorderAll]
  | cons node rest ih => simp [preorderAll, ih]

theorem mem_preorderAll_of_mem {nodes : List Node} {node : Node} (h : node ∈ nodes) :
    node ∈ preorderAll nodes :=
  mem_preorderAll.2 ⟨node, h, by rw [preorder_eq]; exact List.mem_cons_self⟩

theorem preorder_sublist_preorderAll {nodes : List Node} {node : Node} (h : node ∈ nodes) :
    node.preorder.Sublist (preorderAll nodes) := by
  obtain ⟨before, after, rfl⟩ := List.append_of_mem h
  rw [preorderAll_append]
  exact (List.sublist_append_left _ _).trans (List.sublist_append_right _ _)

/-- What is below a node is in the same order there as in the whole tree. -/
theorem preorder_sublist {tree node : Node} (h : node ∈ tree.preorder) :
    node.preorder.Sublist tree.preorder := by
  induction tree using children_induction with
  | node tree ih =>
    rw [preorder_eq tree] at h
    obtain rfl | hbelow := List.mem_cons.1 h
    · exact List.Sublist.refl _
    · obtain ⟨child, hchild, hmem⟩ := mem_preorderAll.1 hbelow
      rw [preorder_eq tree]
      exact ((ih child hchild hmem).trans (preorder_sublist_preorderAll hchild)).cons tree

end ExprFront.Node
