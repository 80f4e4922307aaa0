import ExprFront.Tree.Node

/-!
# Trees as indented text

An outline has one line for each node, indented by its depth, with the role it plays for its
parent. Children in a list stand between brackets, two steps deeper than their parent.
-/

namespace ExprFront

/-- The indentation if nothing else is asked for. -/
def Outline.defaultIndent : String := "  "

/-- A line of an outline. -/
def Outline.line (indent : String) (depth : Nat) (text : String) : String :=
  String.join (List.replicate depth indent) ++ text

namespace Node

/-- A truth value as it is shown in trees. -/
def showBool (value : Bool) : String :=
  if value then "True" else "False"

/-- The class of a node and what it holds besides other nodes. -/
def label : Node → String
  | .number _ value => "NumberLiteral " ++ value.display
  | .bool _ value => "BoolLiteral " ++ showBool value
  | .var _ name => "Var " ++ name.display
  | .userVar _ name => "UserVar " ++ name.display
  | .call _ name _ => "Call " ++ name.display
  | .assign _ name _ => "Assign " ++ name.display
  | .mathAssign _ op name _ => "MathAssign " ++ op.symbol ++ " " ++ name.display
  | .math _ op _ _ => "MathBinOp " ++ op.symbol
  | .compare _ op _ _ => "CompareOp " ++ op.symbol
  | node => node.className

mutual

/-- The lines of a tree at a depth, the first one beginning with its role. -/
def outlineAt (indent : String) (depth : Nat) (role : String) : Node → List String
  | .block p exprs ret =>
    Outline.line indent depth (role ++ (Node.block p exprs ret).label)
      :: outlineList indent (depth + 1) "exprs" exprs
      ++ outlineAt indent (depth + 1) "ret: " ret
  | .ifElse p cond yes no =>
    Outline.line indent depth (role ++ (Node.ifElse p cond yes no).label)
      :: outlineAt indent (depth + 1) "cond: " cond
      ++ outlineAt indent (depth + 1) "yes: " yes
      ++ outlineAt indent (depth + 1) "no: " no
  | .call p name args =>
    Outline.line indent depth (role ++ (Node.call p name args).label)
      :: outlineList indent (depth + 1) "args" args
  | .assign p name value =>
    Outline.line indent depth (role ++ (Node.assign p name value).label)
      :: outlineAt indent (depth + 1) "value: " value
  | .mathAssign p op name value =>
    Outline.line indent depth (role ++ (Node.mathAssign p op name value).label)
      :: outlineAt indent (depth + 1) "value: " value
  | .negate p operand =>
    Outline.line indent depth (role ++ (Node.negate p operand).label)
      :: outlineAt indent (depth + 1) "operand: " operand
  | .not p operand =>
    Outline.line indent depth (role ++ (Node.not p operand).label)
      :: outlineAt indent (depth + 1) "operand: " operand
  | .math p op left right =>
    Outline.line indent depth (role ++ (Node.math p op left right).label)
      :: outlineAt indent (depth + 1) "left: " left
      ++ outlineAt indent (depth + 1) "right: " right
  | .compare p op left right =>
    Outline.line indent depth (role ++ (Node.compare p op left right).label)
      :: outlineAt indent (depth + 1) "left: " left
      ++ outlineAt indent (depth + 1) "right: " right
  | leaf => [Outline.line indent depth (role ++ leaf.label)]

/-- The lines of a list of children between its brackets, which share a line if it is empty. -/
def outlineList (indent : String) (depth : Nat) (role : String) : List Node → List String
  | [] => [Outline.line indent depth (role ++ ": []")]
  | child :: rest =>
    Outline.line indent depth (role ++ ": [")
      :: outlineAt indent (depth + 1) "" child
      ++ outlineRest indent (depth + 1) rest
      ++ [Outline.line indent depth "]"]

/-- The lines of the children after the first. -/
def outlineRest (indent : String) (depth : Nat) : List Node → List String
  | [] => []
  | child :: rest => outlineAt indent depth "" child ++ outlineRest indent depth rest

end

/-- The lines of a tree. -/
def outline (indent : String) (node : Node) : List String :=
  node.outlineAt indent 0 ""

/-- The outline of a tree as one text. -/
def outlineText (indent : String) (node : Node) : String :=
  "\n".intercalate (node.outline indent)

end Node

end ExprFront
