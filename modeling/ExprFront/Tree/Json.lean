import ExprFront.Json.Value
import ExprFront.Tree.Node

/-!
# Trees as JSON

A node is an object with its class and its contents; positions are left out.
-/

namespace ExprFront

/-- A payload as a JSON value. -/
def Payload.toJson : Payload → Json
  | .absent => .null
  | .text value => .text value
  | .number value => .number value

namespace Node

/-- An object of a class. -/
def jsonObject (className : String) (members : List (String × Json)) : Json :=
  .object (("type", .text className) :: members)

mutual

/-- A tree as a JSON value. -/
def toJson : Node → Json
  | .anyNode _ => jsonObject "ASTNode" []
  | .anyExpression _ => jsonObject "Expression" []
  | .number _ value => jsonObject "NumberLiteral" [("value", value.toJson)]
  | .bool _ value => jsonObject "BoolLiteral" [("value", .bool value)]
  | .var _ name => jsonObject "Var" [("name", name.toJson)]
  | .userVar _ name => jsonObject "UserVar" [("name", name.toJson)]
  | .block _ exprs ret =>
    jsonObject "Block" [("exprs", .array (toJsonAll exprs)), ("ret", toJson ret)]
  | .ifElse _ cond yes no =>
    jsonObject "IfElse" [("cond", toJson cond), ("yes", toJson yes), ("no", toJson no)]
  | .call _ name args =>
    jsonObject "Call" [("name", name.toJson), ("args", .array (toJsonAll args))]
  | .assign _ name value => jsonObject "Assign" [("name", name.toJson), ("value", toJson value)]
  | .mathAssign _ op name value =>
    jsonObject "MathAssign"
      [("op", .text op.symbol), ("name", name.toJson), ("value", toJson value)]
  | .negate _ operand => jsonObject "Negate" [("operand", toJson operand)]
  | .not _ operand => jsonObject "Not" [("operand", toJson operand)]
  | .math _ op left right =>
    jsonObject "MathBinOp" [("op", .text op.symbol), ("left", toJson left), ("right", toJson right)]
  | .compare _ op left right =>
    jsonObject "CompareOp" [("op", .text op.symbol), ("left", toJson left), ("right", toJson right)]

/-- Trees as JSON values. -/
def toJsonAll : List Node → List Json
  | [] => []
  | node :: rest => toJson node :: toJsonAll rest

end

end Node

end ExprFront
