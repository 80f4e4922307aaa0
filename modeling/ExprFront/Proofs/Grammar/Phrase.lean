import ExprFront.Parse.Vocabulary
import ExprFront.Tree.Node

/-!
# The grammar as a relation

Which rows of tokens are expressions, statements, arguments and programs, and what tree each of
them stands for. The rules are those of a grammar on paper: nothing here reads tokens one after the
other, and the positions of nodes are left open. One rule settles what would be ambiguous: the left
operand of a binary operator must not be open at its end.
-/

namespace ExprFront

/-- A token that has been cut out of no text. -/
def Token.bare (kind : TokenKind) (payload : Payload := .absent) : Token :=
  .cut [] kind payload .first 0 0

/-- The sorts of phrases, each with what a phrase of the sort stands for. An expression has a tier,
from 1 for equality to 4 for products and 5 for primary expressions. It is open when its last tokens
belong to an assignment or a choice that no parentheses, braces or call within it enclose. -/
inductive Phrase where
  | expression (tier : Nat) (isOpen : Bool) (tree : Node)
  | statements (exprs : List Node) (last : Node)
  | arguments (args : List Node)

/-- The tokens derive the phrase. -/
inductive Derives : List Token → Phrase → Prop where
  | number {t : Token} (p : Position) (ht : t.kind = .number) :
      Derives [t] (.expression 5 false (.number p t.payload))
  | trueWord {t : Token} (p : Position) (ht : t.kind = .trueWord) :
      Derives [t] (.expression 5 false (.bool p true))
  | falseWord {t : Token} (p : Position) (ht : t.kind = .falseWord) :
      Derives [t] (.expression 5 false (.bool p false))
  | negate {t : Token} {ts : List Token} {isOpen : Bool} {e : Node} (p : Position)
      (ht : t.kind = .minus) (he : Derives ts (.expression 5 isOpen e)) :
      Derives (t :: ts) (.expression 5 isOpen (.negate p e))
  | not {t : Token} {ts : List Token} {isOpen : Bool} {e : Node} (p : Position)
      (ht : t.kind = .bang) (he : Derives ts (.expression 5 isOpen e)) :
      Derives (t :: ts) (.expression 5 isOpen (.not p e))
  | var {t : Token} (p : Position) (ht : t.kind = .identifier) :
      Derives [t] (.expression 5 false (.var p t.payload))
  | call {t l r : Token} {ts : List Token} {args : List Node} (p : Position)
      (ht : t.kind = .identifier) (hl : l.kind = .leftParen) (hargs : Derives ts (.arguments args))
      (hr : r.kind = .rightParen) :
      Derives (t :: l :: (ts ++ [r])) (.expression 5 false (.call p t.payload args))
  | userVar {d x : Token} (p : Position) (hd : d.kind = .dollar) (hx : x.kind = .identifier) :
      Derives [d, x] (.expression 5 false (.userVar p x.payload))
  | assign {d x q : Token} {ts : List Token} {isOpen : Bool} {e : Node} (p : Position)
      (hd : d.kind = .dollar) (hx : x.kind = .identifier) (hq : q.kind = .equal)
      (he : Derives ts (.expression 1 isOpen e)) :
      Derives (d :: x :: q :: ts) (.expression 5 true (.assign p x.payload e))
  | mathAssign {d x q : Token} {ts : List Token} {isOpen : Bool} {op : MathOp} {e : Node}
      (p : Position) (hd : d.kind = .dollar) (hx : x.kind = .identifier)
      (hq : q.kind.assignOp? = some op) (he : Derives ts (.expression 1 isOpen e)) :
      Derives (d :: x :: q :: ts) (.expression 5 true (.mathAssign p op x.payload e))
  | block {l r : Token} {ts : List Token} {exprs : List Node} {last : Node} (p : Position)
      (hl : l.kind = .leftBrace) (hbody : Derives ts (.statements exprs last))
      (hr : r.kind = .rightBrace) :
      Derives (l :: (ts ++ [r])) (.expression 5 false (.block p exprs last))
  | group {l r : Token} {ts : List Token} {isOpen : Bool} {e : Node} (hl : l.kind = .leftParen)
      (he : Derives ts (.expression 1 isOpen e)) (hr : r.kind = .rightParen) :
      Derives (l :: (ts ++ [r])) (.expression 5 false e)
  | ifElse {i l r s : Token} {cs ys ns : List Token} {openCond openYes openNo : Bool}
      {cond yes no : Node} (p : Position) (hi : i.kind = .ifWord) (hl : l.kind = .leftParen)
      (hcond : Derives cs (.expression 1 openCond cond)) (hr : r.kind = .rightParen)
      (hyes : Derives ys (.expression 1 openYes yes)) (hs : s.kind = .elseWord)
      (hno : Derives ns (.expression 1 openNo no)) :
      Derives (i :: l :: (cs ++ r :: (ys ++ s :: ns))) (.expression 5 true (.ifElse p cond yes no))
  | looser {ts : List Token} {tier : Nat} {isOpen : Bool} {e : Node} (htier : 1 ≤ tier)
      (he : Derives ts (.expression (tier + 1) isOpen e)) :
      Derives ts (.expression tier isOpen e)
  | binary {ls rs : List Token} {t : Token} {op : BinaryOp} {isOpen : Bool} {left right : Node}
      (p : Position) (hleft : Derives ls (.expression op.tier false left))
      (hop : t.kind.binaryOp? = some op)
      (hright : Derives rs (.expression (op.tier + 1) isOpen right)) :
      Derives (ls ++ t :: rs) (.expression op.tier isOpen (.binary p op left right))
  | last {ts : List Token} {isOpen : Bool} {e : Node} (he : Derives ts (.expression 1 isOpen e)) :
      Derives ts (.statements [] e)
  | semicolon {ts us : List Token} {s : Token} {isOpen : Bool} {e : Node} {exprs : List Node}
      {last : Node} (he : Derives ts (.expression 1 isOpen e)) (hs : s.kind = .semicolon)
      (hrest : Derives us (.statements exprs last)) :
      Derives (ts ++ s :: us) (.statements (e :: exprs) last)
  | noArguments : Derives [] (.arguments [])
  | lastArgument {ts : List Token} {isOpen : Bool} {e : Node}
      (he : Derives ts (.expression 1 isOpen e)) : Derives ts (.arguments [e])
  | comma {ts us : List Token} {s : Token} {isOpen : Bool} {e : Node} {args : List Node}
      (he : Derives ts (.expression 1 isOpen e)) (hs : s.kind = .comma)
      (hrest : Derives us (.arguments args)) : Derives (ts ++ s :: us) (.arguments (e :: args))

/-- What an expression of a tier is, it is of every looser tier. -/
theorem Derives.loosen {ts : List Token} {tier tier' : Nat} {isOpen : Bool} {e : Node}
    (h : Derives ts (.expression tier isOpen e)) (hone : 1 ≤ tier') (htier : tier' ≤ tier) :
    Derives ts (.expression tier' isOpen e) := by
  obtain ⟨k, rfl⟩ := Nat.exists_eq_add_of_le htier
  induction k with
  | zero => exact h
  | succ k ih => exact ih (h.looser (Nat.le_add_right_of_le hone)) (Nat.le_add_right tier' k)

/-- The tokens are a program, and the tree is the block of its statements. -/
def IsProgram (tokens : List Token) (tree : Node) : Prop :=
  ∃ p exprs last, tree = .block p exprs last ∧ Derives tokens (.statements exprs last)

/-- What the tokens of a phrase begin with: a primary expression, where the phrase is an
expression. -/
def Phrase.BeginsWell (tokens : List Token) : Phrase → Prop
  | .expression _ _ _ => ∃ t rest, tokens = t :: rest ∧ t.kind ∈ TokenKind.primaryStart
  | _ => True

theorem Derives.beginsWell {tokens : List Token} {phrase : Phrase} (h : Derives tokens phrase) :
    phrase.BeginsWell tokens := by
  induction h with
  | number p ht => exact ⟨_, _, rfl, by rw [ht]; decide⟩
  | trueWord p ht => exact ⟨_, _, rfl, by rw [ht]; decide⟩
  | falseWord p ht => exact ⟨_, _, rfl, by rw [ht]; decide⟩
  | negate p ht => exact ⟨_, _, rfl, by rw [ht]; decide⟩
  | not p ht => exact ⟨_, _, rfl, by rw [ht]; decide⟩
  | var p ht => exact ⟨_, _, rfl, by rw [ht]; decide⟩
  | call p ht => exact ⟨_, _, rfl, by rw [ht]; decide⟩
  | userVar p hd => exact ⟨_, _, rfl, by rw [hd]; decide⟩
  | assign p hd => exact ⟨_, _, rfl, by rw [hd]; decide⟩
  | mathAssign p hd => exact ⟨_, _, rfl, by rw [hd]; decide⟩
  | block p hl => exact ⟨_, _, rfl, by rw [hl]; decide⟩
  | group hl => exact ⟨_, _, rfl, by rw [hl]; decide⟩
  | ifElse p hi => exact ⟨_, _, rfl, by rw [hi]; decide⟩
  | looser htier he ih => exact ih
  | binary p hleft hop hright ihleft ihright =>
    obtain ⟨t, rest, rfl, ht⟩ := ihleft
    exact ⟨t, _, rfl, ht⟩
  | last he ih => trivial
  | semicolon he hs hrest ih ihrest => trivial
  | noArguments => trivial
  | lastArgument he ih => trivial
  | comma he hs hrest ih ihrest => trivial

namespace BinaryOp

theorem one_le_tier (op : BinaryOp) : 1 ≤ op.tier := by
  rcases op with (_ | _ | _ | _) | (_ | _ | _ | _ | _ | _) <;> decide

theorem tier_le_four (op : BinaryOp) : op.tier ≤ 4 := by
  rcases op with (_ | _ | _ | _) | (_ | _ | _ | _ | _ | _) <;> decide

end BinaryOp

/-! ## What may stand behind an expression -/

namespace TokenKind

/-- The kinds that may stand behind an expression. -/
def followers : List TokenKind :=
  [.semicolon, .comma, .rightParen, .rightBrace, .elseWord] ++ binaryOps.map (·.1)

theorem assignOp?_of_mem_followers {kind : TokenKind} (h : kind ∈ followers) :
    kind.assignOp? = none := by
  cases kind <;> revert h <;> decide

theorem mem_followers_of_binaryOp? {kind : TokenKind} {op : BinaryOp}
    (h : kind.binaryOp? = some op) : kind ∈ followers := by
  cases kind <;> first | decide | cases h

end TokenKind

/-- The token behind, if there is one, may stand behind an expression. -/
def Follows (next : Option Token) : Prop :=
  ∀ t, next = some t → t.kind ∈ TokenKind.followers

/-- The token behind, if there is one, does not continue an expression of the tier: it is an operator
of a looser tier at most, and none at all behind an expression that is open. -/
def Stops (tier : Nat) (isOpen : Bool) (next : Option Token) : Prop :=
  ∀ t op, next = some t → t.kind.binaryOp? = some op → op.tier < tier ∧ isOpen = false

theorem Follows.at_end : Follows none := by
  rintro t ⟨⟩

theorem Follows.of_kind {t : Token} (h : t.kind ∈ TokenKind.followers) : Follows (some t) := by
  rintro _ ⟨⟩
  exact h

theorem Stops.at_end (tier : Nat) (isOpen : Bool) : Stops tier isOpen none := by
  rintro t op ⟨⟩

/-- Behind a token that is no operator every expression stops. -/
theorem Stops.of_kind {t : Token} (h : t.kind.binaryOp? = none) (tier : Nat) (isOpen : Bool) :
    Stops tier isOpen (some t) := by
  rintro _ op ⟨⟩ hop
  rw [h] at hop
  cases hop

/-- A closed expression stops at an operator that is looser than its tier. -/
theorem Stops.of_operator {t : Token} {op : BinaryOp} (h : t.kind.binaryOp? = some op) :
    Stops (op.tier + 1) false (some t) := by
  rintro _ op' ⟨⟩ hop'
  rw [h] at hop'
  cases hop'
  exact ⟨Nat.lt_succ_self _, rfl⟩

/-- Where an expression of the loosest tier stops there is no operator, so every expression does. -/
theorem Stops.of_one {isOpen : Bool} {next : Option Token} (h : Stops 1 isOpen next) (tier : Nat)
    (isOpen' : Bool) : Stops tier isOpen' next := by
  intro t op ht hop
  exact absurd (h t op ht hop).1 (Nat.not_lt.2 op.one_le_tier)

/-- Where an open expression stops there is no operator either. -/
theorem Stops.of_open {tier : Nat} {next : Option Token} (h : Stops tier true next) (tier' : Nat)
    (isOpen : Bool) : Stops tier' isOpen next := by
  intro t op ht hop
  cases (h t op ht hop).2

theorem Stops.mono {tier tier' : Nat} {isOpen : Bool} {next : Option Token}
    (h : Stops tier isOpen next) (htier : tier ≤ tier') : Stops tier' isOpen next := by
  intro t op ht hop
  obtain ⟨hlt, hopen⟩ := h t op ht hop
  exact ⟨Nat.lt_of_lt_of_le hlt htier, hopen⟩

end ExprFront
