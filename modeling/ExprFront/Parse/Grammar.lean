import ExprFront.Parse.Cursor
import ExprFront.Tree.Node

/-!
# The grammar

Expressions are chains of operators in four tiers over primary expressions. The steps for the parts
of a primary expression take the step for the primary expressions within it, whose own room for
nesting is one less; where the room ends, so does the parse. Chains, statements and arguments go
on for as many rounds as they need, and a round passes over at least one token.
-/

namespace ExprFront.Parse

/-! ## Tiers of operators -/

/-- Passes over an operator of a tier. -/
def operator (tier : Nat) : Parse (Option BinaryOp) :=
  acceptAs fun t => t.kind.binaryOp?.filter (·.tier = tier)

/-- Goes on with a chain of one tier, which groups to the left. -/
def chain (tier : Nat) (operand : Parse Node) : List Token → Node → Parse Node
  | [], left => pure left
  | _ :: rounds, left => do
    match ← operator tier with
    | none => pure left
    | some op =>
      let right ← operand
      chain tier operand rounds (.binary left.position op left right)

/-- A chain of operands with the operators of one tier between them. -/
def chained (tier : Nat) (operand : Parse Node) : Parse Node := do
  let left ← operand
  bounded fun rounds => chain tier operand rounds left

/-- Products and quotients. -/
def multiplicative (primary : Parse Node) : Parse Node :=
  chained 4 primary

/-- Sums and differences. -/
def additive (primary : Parse Node) : Parse Node :=
  chained 3 (multiplicative primary)

/-- Comparisons by size. -/
def relational (primary : Parse Node) : Parse Node :=
  chained 2 (additive primary)

/-- Comparisons for equality. -/
def equality (primary : Parse Node) : Parse Node :=
  chained 1 (relational primary)

/-- An expression. -/
def expression (primary : Parse Node) : Parse Node :=
  equality primary

/-! ## Rows of expressions -/

/-- Expressions with semicolons between them: all but the last, and the last. -/
def statementRounds (primary : Parse Node) : List Token → Parse (List Node × Node)
  | [] => do
    let e ← expression primary
    pure ([], e)
  | _ :: rounds => do
    let e ← expression primary
    match ← accept [.semicolon] with
    | none => pure ([], e)
    | some _ =>
      let (es, last) ← statementRounds primary rounds
      pure (e :: es, last)

/-- The expressions of a block. -/
def statements (primary : Parse Node) : Parse (List Node × Node) :=
  bounded (statementRounds primary)

/-- The body of a block, positioned at its first token. -/
def blockBody (primary : Parse Node) : Parse Node := do
  let c ← get
  let position := match c.current? with
    | some t => t.position
    | none => ⟨0, 0⟩
  let (exprs, ret) ← statements primary
  pure (.block position exprs ret)

/-- The arguments of a call, with commas between them and perhaps behind them, up to the closing
parenthesis. -/
def argumentRounds (primary : Parse Node) : List Token → Parse (List Node)
  | [] => do
    let e ← expression primary
    pure [e]
  | _ :: rounds => do
    match ← accept [.rightParen] with
    | some _ => pure []
    | none =>
      let e ← expression primary
      match ← accept [.rightParen] with
      | some _ => pure [e]
      | none =>
        let _ ← expect .comma
        let es ← argumentRounds primary rounds
        pure (e :: es)

/-- The arguments of a call behind its opening parenthesis. -/
def arguments (primary : Parse Node) : Parse (List Node) :=
  bounded (argumentRounds primary)

/-! ## Primary expressions -/

/-- A user variable behind its dollar sign: read, assigned, or changed by an operator. -/
def userVar (primary : Parse Node) (dollar : Token) : Parse Node := do
  let name := (← expect .identifier).payload
  match ← accept [.equal] with
  | some _ => return .assign dollar.position name (← expression primary)
  | none =>
    match ← acceptAs fun t => t.kind.assignOp? with
    | some op => return .mathAssign dollar.position op name (← expression primary)
    | none => return .userVar dollar.position name

/-- A choice behind its first word. -/
def ifElse (primary : Parse Node) (word : Token) : Parse Node := do
  let _ ← expect .leftParen
  let cond ← expression primary
  let _ ← expect .rightParen
  let yes ← expression primary
  let _ ← expect .elseWord
  let no ← expression primary
  return .ifElse word.position cond yes no

/-- A primary expression behind its first token. -/
def primaryAfter (primary : Parse Node) (t : Token) : Parse Node :=
  match t.kind with
  | .number => pure (.number t.position t.payload)
  | .trueWord => pure (.bool t.position true)
  | .falseWord => pure (.bool t.position false)
  | .minus => return .negate t.position (← primary)
  | .bang => return .not t.position (← primary)
  | .identifier => do
    match ← accept [.leftParen] with
    | some _ => return .call t.position t.payload (← arguments primary)
    | none => return .var t.position t.payload
  | .dollar => userVar primary t
  | .leftBrace => do
    let (exprs, ret) ← statements primary
    let _ ← expect .rightBrace
    return .block t.position exprs ret
  | .leftParen => do
    let e ← expression primary
    let _ ← expect .rightParen
    return e
  | .ifWord => ifElse primary t
  | _ => throw (.unexpectedToken t TokenKind.primaryStart)

/-- A primary expression with room for some levels of nesting, itself included. Where there is no
room the token is still passed over, and the expression it would open counts as open. -/
def primary : Nat → Parse Node
  | 0 => do
    let t ← advance TokenKind.primaryStart
    modify fun c => { c with depth := c.depth + 1 }
    throw (.nestingTooDeep t)
  | room + 1 => do
    let t ← advance TokenKind.primaryStart
    nested (primaryAfter (primary room) t)

/-- Runs a step of the grammar with at most `maxDepth` primary expressions open at once. -/
def within {α : Type} (maxDepth : Int) (step : Parse Node → Parse α) : Parse α := fun c =>
  step (primary (c.room maxDepth)) c

/-! ## Programs -/

/-- A program: the body of a block, up to the end of the tokens. -/
def program (primary : Parse Node) : Parse Node := do
  let block ← blockBody primary
  match (← get).current? with
  | none => pure block
  | some t => throw (.unexpectedToken t TokenKind.continuation)

end ExprFront.Parse

namespace ExprFront

/-- The levels of nesting allowed if nothing else is asked for. -/
def defaultMaxDepth : Int := 100

/-- The tree of a program's tokens, or what is wrong with them. -/
def parse (maxDepth : Int) (tokens : List Token) : Except ParseError Node :=
  match Parse.within maxDepth Parse.program (.ofTokens tokens) with
  | .ok tree _ => .ok tree
  | .error e _ => .error e

/-- The tree of a program's tokens, or the failure that a caller meets. -/
def parseTokens (maxDepth : Int) (tokens : List Token) : Except ParseFailure Node :=
  match Parse.raising (Parse.within maxDepth Parse.program) (.ofTokens tokens) with
  | .ok tree _ => .ok tree
  | .error failure _ => .error failure

theorem parseTokens_eq (maxDepth : Int) (tokens : List Token) :
    parseTokens maxDepth tokens = (parse maxDepth tokens).mapError ParseError.raised := by
  unfold parseTokens parse Parse.raising
  cases Parse.within maxDepth Parse.program (.ofTokens tokens) <;> rfl

theorem parseTokens_of_ok {maxDepth : Int} {tokens : List Token} {tree : Node}
    (h : parse maxDepth tokens = .ok tree) : parseTokens maxDepth tokens = .ok tree := by
  rw [parseTokens_eq, h]
  rfl

theorem parseTokens_of_error {maxDepth : Int} {tokens : List Token} {e : ParseError}
    (h : parse maxDepth tokens = .error e) : parseTokens maxDepth tokens = .error e.raised := by
  rw [parseTokens_eq, h]
  rfl

/-- The tokens of a tree that a caller gets are parsed to it. -/
theorem parse_of_parseTokens_ok {maxDepth : Int} {tokens : List Token} {tree : Node}
    (h : parseTokens maxDepth tokens = .ok tree) : parse maxDepth tokens = .ok tree := by
  rw [parseTokens_eq] at h
  cases hrun : parse maxDepth tokens <;> rw [hrun] at h <;> cases h
  rfl

/-- An error that a caller meets is the one that was raised, and it has been written. -/
theorem parse_of_parseTokens_error {maxDepth : Int} {tokens : List Token} {e : ParseError}
    (h : parseTokens maxDepth tokens = .error (.error e)) :
    parse maxDepth tokens = .error e ∧ e.position.isWritable = true := by
  rw [parseTokens_eq] at h
  cases hrun : parse maxDepth tokens with
  | ok tree => rw [hrun] at h; cases h
  | error e' =>
    rw [hrun] at h
    obtain ⟨rfl, hwritable⟩ := ParseError.raised_eq_error_iff.1 (Except.error.inj h)
    exact ⟨rfl, hwritable⟩

end ExprFront
