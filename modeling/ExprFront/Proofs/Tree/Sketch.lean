import ExprFront.Tree.Node

/-!
# Sketches of trees

A sketch is a tree with gaps. Wherever a tree has a position, a name or a number, its sketch has the
place of the token that this is taken from. Filled in from tokens, a sketch is a tree; filled in from
others whose payloads are equal, it is an equal tree.
-/

namespace ExprFront

/-- A tree whose positions and payloads are still to be taken from tokens. -/
inductive Sketch (ι : Type) where
  | anyNode (position : ι)
  | anyExpression (position : ι)
  | number (position value : ι)
  | bool (position : ι) (value : Bool)
  | var (position name : ι)
  | userVar (position name : ι)
  | block (position : ι) (exprs : List (Sketch ι)) (ret : Sketch ι)
  | ifElse (position : ι) (cond yes no : Sketch ι)
  | call (position name : ι) (args : List (Sketch ι))
  | assign (position name : ι) (value : Sketch ι)
  | mathAssign (position : ι) (op : MathOp) (name : ι) (value : Sketch ι)
  | negate (position : ι) (operand : Sketch ι)
  | not (position : ι) (operand : Sketch ι)
  | math (position : ι) (op : MathOp) (left right : Sketch ι)
  | compare (position : ι) (op : CompareOp) (left right : Sketch ι)

namespace Sketch

variable {ι : Type}

mutual

/-- The tree with the positions and payloads of these tokens. -/
def fill (tokens : ι → Token) : Sketch ι → Node
  | .anyNode i => .anyNode (tokens i).position
  | .anyExpression i => .anyExpression (tokens i).position
  | .number i j => .number (tokens i).position (tokens j).payload
  | .bool i value => .bool (tokens i).position value
  | .var i j => .var (tokens i).position (tokens j).payload
  | .userVar i j => .userVar (tokens i).position (tokens j).payload
  | .block i exprs ret => .block (tokens i).position (fillAll tokens exprs) (fill tokens ret)
  | .ifElse i cond yes no =>
    .ifElse (tokens i).position (fill tokens cond) (fill tokens yes) (fill tokens no)
  | .call i j args => .call (tokens i).position (tokens j).payload (fillAll tokens args)
  | .assign i j value => .assign (tokens i).position (tokens j).payload (fill tokens value)
  | .mathAssign i op j value =>
    .mathAssign (tokens i).position op (tokens j).payload (fill tokens value)
  | .negate i operand => .negate (tokens i).position (fill tokens operand)
  | .not i operand => .not (tokens i).position (fill tokens operand)
  | .math i op left right => .math (tokens i).position op (fill tokens left) (fill tokens right)
  | .compare i op left right =>
    .compare (tokens i).position op (fill tokens left) (fill tokens right)

/-- The trees with the positions and payloads of these tokens. -/
def fillAll (tokens : ι → Token) : List (Sketch ι) → List Node
  | [] => []
  | sketch :: rest => fill tokens sketch :: fillAll tokens rest

end

variable {tokens tokens' : ι → Token}

mutual

/-- Equal payloads make equal trees, wherever the tokens stand. -/
theorem equals_fill (h : ∀ i, (tokens i).payload.equals (tokens' i).payload = true)
    (sketch : Sketch ι) : (sketch.fill tokens).equals (sketch.fill tokens') = true := by
  cases sketch <;> simp only [fill, Node.equals, h, equals_fill h, equalsAll_fillAll h,
    beq_self_eq_true, Bool.and_self]

theorem equalsAll_fillAll (h : ∀ i, (tokens i).payload.equals (tokens' i).payload = true)
    (sketches : List (Sketch ι)) :
    Node.equalsAll (fillAll tokens sketches) (fillAll tokens' sketches) = true := by
  cases sketches with
  | nil => rfl
  | cons sketch rest =>
    simp only [fillAll, Node.equalsAll, equals_fill h, equalsAll_fillAll h, Bool.and_self]

end

end Sketch

end ExprFront
