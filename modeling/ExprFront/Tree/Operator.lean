/-!
# Operators

Binary operators are arithmetic or compare; each has a name and the symbol that writes it.
-/

namespace ExprFront

/-- An arithmetic operator. -/
inductive MathOp where
  | add
  | sub
  | mul
  | div
  deriving DecidableEq, Inhabited

namespace MathOp

/-- All arithmetic operators, in the order of their declaration. -/
def all : List MathOp := [.add, .sub, .mul, .div]

/-- The name of an operator. -/
def name : MathOp → String
  | .add => "ADD"
  | .sub => "SUB"
  | .mul => "MUL"
  | .div => "DIV"

/-- The symbol of an operator. -/
def symbol : MathOp → String
  | .add => "+"
  | .sub => "-"
  | .mul => "*"
  | .div => "/"

/-- The operator of a name. -/
def ofName? (name : String) : Option MathOp :=
  all.find? (·.name == name)

end MathOp

/-- A comparison operator. -/
inductive CompareOp where
  | equal
  | notEqual
  | greater
  | greaterEqual
  | less
  | lessEqual
  deriving DecidableEq, Inhabited

namespace CompareOp

/-- All comparison operators, in the order of their declaration. -/
def all : List CompareOp := [.equal, .notEqual, .greater, .greaterEqual, .less, .lessEqual]

/-- The name of an operator. -/
def name : CompareOp → String
  | .equal => "EQUAL"
  | .notEqual => "NOT_EQUAL"
  | .greater => "GREATER"
  | .greaterEqual => "GREATER_EQUAL"
  | .less => "LESS"
  | .lessEqual => "LESS_EQUAL"

/-- The symbol of an operator. -/
def symbol : CompareOp → String
  | .equal => "=="
  | .notEqual => "!="
  | .greater => ">"
  | .greaterEqual => ">="
  | .less => "<"
  | .lessEqual => "<="

/-- The operator of a name. -/
def ofName? (name : String) : Option CompareOp :=
  all.find? (·.name == name)

end CompareOp

/-! ## Binary operators of both sorts -/

/-- A binary operator. -/
inductive BinaryOp where
  | math (op : MathOp)
  | compare (op : CompareOp)
  deriving DecidableEq

/-- How tightly an operator binds, from 1 for equality to 4 for products and quotients. -/
def BinaryOp.tier : BinaryOp → Nat
  | .compare .equal | .compare .notEqual => 1
  | .compare _ => 2
  | .math .add | .math .sub => 3
  | .math .mul | .math .div => 4

end ExprFront
