import ExprFront.Token.Kind
import ExprFront.Tree.Operator

/-!
# Tokens in the grammar

Which tokens are operators and what they stand for, and which may begin a primary expression or
continue a program.
-/

namespace ExprFront

/-- The binary operator that each kind of token stands for. -/
def binaryOps : List (TokenKind × BinaryOp) :=
  [(.equalEqual, .compare .equal), (.bangEqual, .compare .notEqual),
   (.greater, .compare .greater), (.greaterEqual, .compare .greaterEqual),
   (.less, .compare .less), (.lessEqual, .compare .lessEqual),
   (.plus, .math .add), (.minus, .math .sub), (.star, .math .mul), (.slash, .math .div)]

/-- The arithmetic that each compound assignment does. -/
def assignOps : List (TokenKind × MathOp) :=
  [(.plusEqual, .add), (.minusEqual, .sub), (.starEqual, .mul), (.slashEqual, .div)]

namespace TokenKind

/-- The binary operator that a kind of token stands for. -/
def binaryOp? (kind : TokenKind) : Option BinaryOp :=
  binaryOps.lookup kind

/-- The arithmetic that a kind of token does when assigning. -/
def assignOp? (kind : TokenKind) : Option MathOp :=
  assignOps.lookup kind

/-- The kinds that begin a primary expression. -/
def primaryStart : List TokenKind :=
  [.number, .trueWord, .falseWord, .minus, .bang, .identifier, .dollar, .leftBrace, .leftParen,
   .ifWord]

/-- The kinds that continue a program behind a complete expression. -/
def continuation : List TokenKind :=
  .semicolon :: binaryOps.map (·.1)

end TokenKind

end ExprFront
