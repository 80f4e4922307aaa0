import ExprFront.Token.Basic
import ExprFront.Tree.Operator

/-!
# Syntax trees

A node has a position and what its class adds: literals and variables carry the payload of their
token, the other nodes have children. Two classes stand for any node and any expression; a parser
never makes them, they are what a child is that has not been filled in. Trees are the same when
their classes and contents agree, wherever their nodes stand.
-/

namespace ExprFront

/-- A node of a syntax tree. -/
inductive Node where
  | anyNode (position : Position)
  | anyExpression (position : Position)
  | number (position : Position) (value : Payload)
  | bool (position : Position) (value : Bool)
  | var (position : Position) (name : Payload)
  | userVar (position : Position) (name : Payload)
  | block (position : Position) (exprs : List Node) (ret : Node)
  | ifElse (position : Position) (cond yes no : Node)
  | call (position : Position) (name : Payload) (args : List Node)
  | assign (position : Position) (name : Payload) (value : Node)
  | mathAssign (position : Position) (op : MathOp) (name : Payload) (value : Node)
  | negate (position : Position) (operand : Node)
  | not (position : Position) (operand : Node)
  | math (position : Position) (op : MathOp) (left right : Node)
  | compare (position : Position) (op : CompareOp) (left right : Node)

instance : Inhabited Node := ⟨.anyNode ⟨0, 0⟩⟩

namespace Node

/-- The position of a node. -/
def position : Node → Position
  | .anyNode p | .anyExpression p | .number p _ | .bool p _ | .var p _ | .userVar p _
  | .block p _ _ | .ifElse p _ _ _ | .call p _ _ | .assign p _ _ | .mathAssign p _ _ _
  | .negate p _ | .not p _ | .math p _ _ _ | .compare p _ _ _ => p

/-- The name of a node's class. -/
def className : Node → String
  | .anyNode _ => "ASTNode"
  | .anyExpression _ => "Expression"
  | .number _ _ => "NumberLiteral"
  | .bool _ _ => "BoolLiteral"
  | .var _ _ => "Var"
  | .userVar _ _ => "UserVar"
  | .block _ _ _ => "Block"
  | .ifElse _ _ _ _ => "IfElse"
  | .call _ _ _ => "Call"
  | .assign _ _ _ => "Assign"
  | .mathAssign _ _ _ _ => "MathAssign"
  | .negate _ _ => "Negate"
  | .not _ _ => "Not"
  | .math _ _ _ _ => "MathBinOp"
  | .compare _ _ _ _ => "CompareOp"

/-- The node of a binary operator. -/
def binary (position : Position) (op : BinaryOp) (left right : Node) : Node :=
  match op with
  | .math op => .math position op left right
  | .compare op => .compare position op left right

@[simp] theorem position_binary (p : Position) (op : BinaryOp) (left right : Node) :
    (binary p op left right).position = p := by
  cases op <;> rfl

mutual

/-- Equality of trees, which ignores positions and is numeric on numbers. -/
def equals : Node → Node → Bool
  | .anyNode _, .anyNode _ => true
  | .anyExpression _, .anyExpression _ => true
  | .number _ v, .number _ v' => v.equals v'
  | .bool _ v, .bool _ v' => v == v'
  | .var _ n, .var _ n' => n.equals n'
  | .userVar _ n, .userVar _ n' => n.equals n'
  | .block _ es r, .block _ es' r' => equalsAll es es' && equals r r'
  | .ifElse _ c y n, .ifElse _ c' y' n' => equals c c' && equals y y' && equals n n'
  | .call _ n as, .call _ n' as' => n.equals n' && equalsAll as as'
  | .assign _ n v, .assign _ n' v' => n.equals n' && equals v v'
  | .mathAssign _ o n v, .mathAssign _ o' n' v' => o == o' && n.equals n' && equals v v'
  | .negate _ e, .negate _ e' => equals e e'
  | .not _ e, .not _ e' => equals e e'
  | .math _ o l r, .math _ o' l' r' => o == o' && equals l l' && equals r r'
  | .compare _ o l r, .compare _ o' l' r' => o == o' && equals l l' && equals r r'
  | _, _ => false

/-- Equality of rows of trees. -/
def equalsAll : List Node → List Node → Bool
  | [], [] => true
  | t :: ts, t' :: ts' => equals t t' && equalsAll ts ts'
  | _, _ => false

end

end Node

end ExprFront
