import Mathlib.Data.List.Forall2
import ExprFront.Proofs.Tree.Preorder
import ExprFront.Proofs.Tree.Unplaced

/-!
# Nodes as named fields

A node is its class and a row of named fields. What is said of nodes field by field, whether they are
equal or alike and what they hold, is said here once for all classes.
-/

namespace ExprFront

/-- What a field of a node holds: a value without parts, a child or a list of children. -/
inductive Field where
  | payload (value : Payload)
  | bool (value : Bool)
  | symbol (text : String)
  | node (child : Node)
  | nodes (children : List Node)

namespace Field

/-- The children in a field. -/
def children : Field → List Node
  | .node child => [child]
  | .nodes children => children
  | _ => []

/-- The payload in a field. -/
def payload? : Field → Option Payload
  | .payload value => some value
  | _ => none

/-- The list of children that a field holds, if it holds one. -/
def lists : Field → List (List Node)
  | .nodes children => [children]
  | _ => []

/-- A field with the positions of all nodes in it taken away. -/
def unplaced : Field → Field
  | .node child => .node child.unplaced
  | .nodes children => .nodes (Node.unplacedAll children)
  | field => field

/-- Equality of fields, which is that of payloads and trees on them. -/
def equals : Field → Field → Bool
  | .payload value, .payload value' => value.equals value'
  | .bool value, .bool value' => value == value'
  | .symbol text, .symbol text' => text == text'
  | .node child, .node child' => child.equals child'
  | .nodes children, .nodes children' => Node.equalsAll children children'
  | _, _ => false

end Field

/-! ## Symbols -/

/-- The arithmetic operator of a symbol. -/
def MathOp.ofSymbol? (symbol : String) : Option MathOp :=
  all.find? (·.symbol == symbol)

/-- The comparison operator of a symbol. -/
def CompareOp.ofSymbol? (symbol : String) : Option CompareOp :=
  all.find? (·.symbol == symbol)

@[simp] theorem MathOp.ofSymbol?_symbol (op : MathOp) : ofSymbol? op.symbol = some op := by
  cases op <;> rfl

@[simp] theorem CompareOp.ofSymbol?_symbol (op : CompareOp) : ofSymbol? op.symbol = some op := by
  cases op <;> rfl

@[simp] theorem MathOp.symbol_inj {op op' : MathOp} : op.symbol = op'.symbol ↔ op = op' := by
  refine ⟨fun h => Option.some.inj ?_, congrArg _⟩
  rw [← ofSymbol?_symbol op, h, ofSymbol?_symbol]

@[simp] theorem CompareOp.symbol_inj {op op' : CompareOp} :
    op.symbol = op'.symbol ↔ op = op' := by
  refine ⟨fun h => Option.some.inj ?_, congrArg _⟩
  rw [← ofSymbol?_symbol op, h, ofSymbol?_symbol]

theorem MathOp.symbol_beq (op op' : MathOp) : (op.symbol == op'.symbol) = (op == op') := by
  rw [Bool.eq_iff_iff, beq_iff_eq, beq_iff_eq, symbol_inj]

theorem CompareOp.symbol_beq (op op' : CompareOp) : (op.symbol == op'.symbol) = (op == op') := by
  rw [Bool.eq_iff_iff, beq_iff_eq, beq_iff_eq, symbol_inj]

/-! ## Fields -/

namespace Node

/-- The fields of a node besides its position, with their names, in the order of their
declaration. -/
def fields : Node → List (String × Field)
  | .anyNode _ | .anyExpression _ => []
  | .number _ value => [("value", .payload value)]
  | .bool _ value => [("value", .bool value)]
  | .var _ name | .userVar _ name => [("name", .payload name)]
  | .block _ exprs ret => [("exprs", .nodes exprs), ("ret", .node ret)]
  | .ifElse _ cond yes no => [("cond", .node cond), ("yes", .node yes), ("no", .node no)]
  | .call _ name args => [("name", .payload name), ("args", .nodes args)]
  | .assign _ name value => [("name", .payload name), ("value", .node value)]
  | .mathAssign _ op name value =>
    [("op", .symbol op.symbol), ("name", .payload name), ("value", .node value)]
  | .negate _ operand | .not _ operand => [("operand", .node operand)]
  | .math _ op left right =>
    [("op", .symbol op.symbol), ("left", .node left), ("right", .node right)]
  | .compare _ op left right =>
    [("op", .symbol op.symbol), ("left", .node left), ("right", .node right)]

theorem children_eq (node : Node) : node.children = node.fields.flatMap (·.2.children) := by
  cases node <;> simp [children, fields, Field.children]

@[simp] theorem className_unplaced (node : Node) : node.unplaced.className = node.className := by
  cases node <;> rfl

theorem equals_of_className_ne {a b : Node} (h : a.className ≠ b.className) :
    a.equals b = false := by
  cases a <;> cases b <;> first | rfl | exact absurd rfl h

/-- Nodes are equal when their classes are the same and their fields are equal one by one. -/
theorem equals_iff_fields {a b : Node} :
    a.equals b = true ↔
      a.className = b.className ∧
        List.Forall₂ (fun f g => f.1 = g.1 ∧ f.2.equals g.2 = true) a.fields b.fields := by
  by_cases h : a.className = b.className
  · cases a <;> cases b <;> first
      | exact absurd h (of_decide_eq_false rfl)
      | simp [equals, className, fields, Field.equals, and_assoc]
  · simp [equals_of_className_ne h, h]

/-- Nodes are alike when their classes are the same and their fields are alike one by one. -/
theorem unplaced_eq_iff_fields {a b : Node} :
    a.unplaced = b.unplaced ↔
      a.className = b.className ∧
        List.Forall₂ (fun f g => f.1 = g.1 ∧ f.2.unplaced = g.2.unplaced) a.fields b.fields := by
  by_cases h : a.className = b.className
  · cases a <;> cases b <;> first
      | exact absurd h (of_decide_eq_false rfl)
      | simp [unplaced, className, fields, Field.unplaced]
  · refine iff_of_false (fun hab => h ?_) fun hab => h hab.1
    rw [← className_unplaced a, hab, className_unplaced]

/-! ## Rows of trees -/

theorem unplacedAll_eq_map (nodes : List Node) : unplacedAll nodes = nodes.map unplaced := by
  induction nodes with
  | nil => rfl
  | cons node rest ih => rw [unplacedAll, ih, List.map_cons]

theorem unplacedAll_eq_iff {as bs : List Node} :
    unplacedAll as = unplacedAll bs ↔ List.Forall₂ (fun a b => a.unplaced = b.unplaced) as bs := by
  rw [unplacedAll_eq_map, unplacedAll_eq_map, ← List.forall₂_eq_eq_eq, List.forall₂_map_left_iff,
    List.forall₂_map_right_iff]

theorem equalsAll_iff {as bs : List Node} :
    equalsAll as bs = true ↔ List.Forall₂ (fun a b => a.equals b = true) as bs := by
  induction as generalizing bs with
  | nil => cases bs <;> simp [equalsAll]
  | cons a as ih => cases bs <;> simp [equalsAll, ih]

/-! ## Payloads -/

/-- The payloads in a tree, in document order. -/
def payloads (tree : Node) : List Payload :=
  tree.preorder.flatMap fun node => node.fields.filterMap (·.2.payload?)

section

variable {node child : Node} {name : String} {value : Payload} {field : Field}

theorem mem_payloads (h : (name, .payload value) ∈ node.fields) : value ∈ node.payloads := by
  rw [payloads, preorder_eq, List.flatMap_cons]
  exact List.mem_append_left _ (List.mem_filterMap.2 ⟨_, h, rfl⟩)

theorem payloads_subset (h : child ∈ node.children) : child.payloads ⊆ node.payloads := by
  rw [payloads, payloads, preorder_eq node, List.flatMap_cons]
  refine List.Subset.trans (fun p hp => ?_) (List.subset_append_right _ _)
  obtain ⟨below, hbelow, hmem⟩ := List.mem_flatMap.1 hp
  exact List.mem_flatMap.2 ⟨below, (preorder_sublist_preorderAll h).subset hbelow, hmem⟩

theorem mem_children (h : (name, field) ∈ node.fields) (hchild : child ∈ field.children) :
    child ∈ node.children := by
  rw [children_eq]
  exact List.mem_flatMap.2 ⟨_, h, hchild⟩

end

/-- A tree equals itself if its payloads do. -/
theorem equals_self_of_payloads {tree : Node} (h : ∀ p ∈ tree.payloads, p.equals p = true) :
    tree.equals tree = true := by
  induction tree using children_induction with
  | node tree ih =>
    have hchild : ∀ child ∈ tree.children, child.equals child = true :=
      fun child hchild => ih child hchild fun p hp => h p (payloads_subset hchild hp)
    refine equals_iff_fields.2 ⟨rfl, List.forall₂_same.2 ?_⟩
    rintro ⟨name, field⟩ hfield
    refine ⟨rfl, ?_⟩
    cases field with
    | payload value => exact h value (mem_payloads hfield)
    | bool value => exact beq_self_eq_true value
    | symbol text => exact beq_self_eq_true text
    | node child => exact hchild child (mem_children hfield (.head _))
    | nodes children =>
      exact equalsAll_iff.2 (List.forall₂_same.2 fun child hmem =>
        hchild child (mem_children hfield hmem))

theorem forall₂_imp_of_mem {α : Type} {R S : α → α → Prop} {as bs : List α}
    (h : ∀ a ∈ as, ∀ b ∈ bs, R a b → S a b) (hR : List.Forall₂ R as bs) : List.Forall₂ S as bs :=
  List.forall₂_iff_zip.2 ⟨hR.length_eq, fun hmem =>
    h _ (List.of_mem_zip hmem).1 _ (List.of_mem_zip hmem).2 (List.forall₂_zip hR hmem)⟩

/-- Equal trees are alike if payloads in them are equal only to themselves. -/
theorem unplaced_eq_of_equals {a b : Node}
    (h : ∀ p ∈ a.payloads, ∀ q ∈ b.payloads, p.equals q = true → p = q)
    (hab : a.equals b = true) : a.unplaced = b.unplaced := by
  induction a using children_induction generalizing b with
  | node a ih =>
    have hchild : ∀ x ∈ a.children, ∀ y ∈ b.children, x.equals y = true →
        x.unplaced = y.unplaced := fun x hx y hy =>
      ih x hx fun p hp q hq => h p (payloads_subset hx hp) q (payloads_subset hy hq)
    obtain ⟨hclass, hfields⟩ := equals_iff_fields.1 hab
    refine unplaced_eq_iff_fields.2 ⟨hclass, forall₂_imp_of_mem ?_ hfields⟩
    rintro ⟨name, f⟩ hf ⟨name', g⟩ hg ⟨hname, hfg⟩
    refine ⟨hname, ?_⟩
    cases f <;> cases g <;> simp only [Field.equals, Bool.false_eq_true] at hfg
    case payload.payload => rw [h _ (mem_payloads hf) _ (mem_payloads hg) hfg]
    case bool.bool => rw [eq_of_beq hfg]
    case symbol.symbol => rw [eq_of_beq hfg]
    case node.node x y =>
      exact congrArg Field.node (hchild x (mem_children hf (.head _)) y (mem_children hg (.head _)) hfg)
    case nodes.nodes xs ys =>
      refine congrArg Field.nodes (unplacedAll_eq_iff.2 (forall₂_imp_of_mem ?_ (equalsAll_iff.1 hfg)))
      exact fun x hx y hy => hchild x (mem_children hf hx) y (mem_children hg hy)

end Node

end ExprFront
