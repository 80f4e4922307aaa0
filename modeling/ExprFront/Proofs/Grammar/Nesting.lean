import ExprFront.Proofs.Grammar.Phrase

/-!
# How deeply phrases nest

The rules of the grammar once more, each with the number of primary expressions that are open at
once where the phrase is deepest. A primary expression counts for itself on top of what is within it,
parentheses for grouping included, and an operator does not count at all.
-/

namespace ExprFront

/-- The tokens derive the phrase, and where the derivation is deepest so many primary expressions
are open at once. -/
inductive Nests : List Token → Phrase → Nat → Prop where
  | number {t : Token} (p : Position) (ht : t.kind = .number) :
      Nests [t] (.expression 5 false (.number p t.payload)) 1
  | trueWord {t : Token} (p : Position) (ht : t.kind = .trueWord) :
      Nests [t] (.expression 5 false (.bool p true)) 1
  | falseWord {t : Token} (p : Position) (ht : t.kind = .falseWord) :
      Nests [t] (.expression 5 false (.bool p false)) 1
  | negate {t : Token} {ts : List Token} {isOpen : Bool} {e : Node} {n : Nat} (p : Position)
      (ht : t.kind = .minus) (he : Nests ts (.expression 5 isOpen e) n) :
      Nests (t :: ts) (.expression 5 isOpen (.negate p e)) (n + 1)
  | not {t : Token} {ts : List Token} {isOpen : Bool} {e : Node} {n : Nat} (p : Position)
      (ht : t.kind = .bang) (he : Nests ts (.expression 5 isOpen e) n) :
      Nests (t :: ts) (.expression 5 isOpen (.not p e)) (n + 1)
  | var {t : Token} (p : Position) (ht : t.kind = .identifier) :
      Nests [t] (.expression 5 false (.var p t.payload)) 1
  | call {t l r : Token} {ts : List Token} {args : List Node} {n : Nat} (p : Position)
      (ht : t.kind = .identifier) (hl : l.kind = .leftParen) (hargs : Nests ts (.arguments args) n)
      (hr : r.kind = .rightParen) :
      Nests (t :: l :: (ts ++ [r])) (.expression 5 false (.call p t.payload args)) (n + 1)
  | userVar {d x : Token} (p : Position) (hd : d.kind = .dollar) (hx : x.kind = .identifier) :
      Nests [d, x] (.expression 5 false (.userVar p x.payload)) 1
  | assign {d x q : Token} {ts : List Token} {isOpen : Bool} {e : Node} {n : Nat} (p : Position)
      (hd : d.kind = .dollar) (hx : x.kind = .identifier) (hq : q.kind = .equal)
      (he : Nests ts (.expression 1 isOpen e) n) :
      Nests (d :: x :: q :: ts) (.expression 5 true (.assign p x.payload e)) (n + 1)
  | mathAssign {d x q : Token} {ts : List Token} {isOpen : Bool} {op : MathOp} {e : Node} {n : Nat}
      (p : Position) (hd : d.kind = .dollar) (hx : x.kind = .identifier)
      (hq : q.kind.assignOp? = some op) (he : Nests ts (.expression 1 isOpen e) n) :
      Nests (d :: x :: q :: ts) (.expression 5 true (.mathAssign p op x.payload e)) (n + 1)
  | block {l r : Token} {ts : List Token} {exprs : List Node} {last : Node} {n : Nat} (p : Position)
      (hl : l.kind = .leftBrace) (hbody : Nests ts (.statements exprs last) n)
      (hr : r.kind = .rightBrace) :
      Nests (l :: (ts ++ [r])) (.expression 5 false (.block p exprs last)) (n + 1)
  | group {l r : Token} {ts : List Token} {isOpen : Bool} {e : Node} {n : Nat}
      (hl : l.kind = .leftParen) (he : Nests ts (.expression 1 isOpen e) n)
      (hr : r.kind = .rightParen) : Nests (l :: (ts ++ [r])) (.expression 5 false e) (n + 1)
  | ifElse {i l r s : Token} {cs ys ns : List Token} {openCond openYes openNo : Bool}
      {cond yes no : Node} {nCond nYes nNo : Nat} (p : Position) (hi : i.kind = .ifWord)
      (hl : l.kind = .leftParen) (hcond : Nests cs (.expression 1 openCond cond) nCond)
      (hr : r.kind = .rightParen) (hyes : Nests ys (.expression 1 openYes yes) nYes)
      (hs : s.kind = .elseWord) (hno : Nests ns (.expression 1 openNo no) nNo) :
      Nests (i :: l :: (cs ++ r :: (ys ++ s :: ns))) (.expression 5 true (.ifElse p cond yes no))
        (max nCond (max nYes nNo) + 1)
  | looser {ts : List Token} {tier n : Nat} {isOpen : Bool} {e : Node} (htier : 1 ≤ tier)
      (he : Nests ts (.expression (tier + 1) isOpen e) n) :
      Nests ts (.expression tier isOpen e) n
  | binary {ls rs : List Token} {t : Token} {op : BinaryOp} {isOpen : Bool} {left right : Node}
      {nLeft nRight : Nat} (p : Position) (hleft : Nests ls (.expression op.tier false left) nLeft)
      (hop : t.kind.binaryOp? = some op)
      (hright : Nests rs (.expression (op.tier + 1) isOpen right) nRight) :
      Nests (ls ++ t :: rs) (.expression op.tier isOpen (.binary p op left right))
        (max nLeft nRight)
  | last {ts : List Token} {isOpen : Bool} {e : Node} {n : Nat}
      (he : Nests ts (.expression 1 isOpen e) n) : Nests ts (.statements [] e) n
  | semicolon {ts us : List Token} {s : Token} {isOpen : Bool} {e : Node} {exprs : List Node}
      {last : Node} {n nRest : Nat} (he : Nests ts (.expression 1 isOpen e) n)
      (hs : s.kind = .semicolon) (hrest : Nests us (.statements exprs last) nRest) :
      Nests (ts ++ s :: us) (.statements (e :: exprs) last) (max n nRest)
  | noArguments : Nests [] (.arguments []) 0
  | lastArgument {ts : List Token} {isOpen : Bool} {e : Node} {n : Nat}
      (he : Nests ts (.expression 1 isOpen e) n) : Nests ts (.arguments [e]) n
  | comma {ts us : List Token} {s : Token} {isOpen : Bool} {e : Node} {args : List Node}
      {n nRest : Nat} (he : Nests ts (.expression 1 isOpen e) n) (hs : s.kind = .comma)
      (hrest : Nests us (.arguments args) nRest) :
      Nests (ts ++ s :: us) (.arguments (e :: args)) (max n nRest)

/-- Every derivation is deepest somewhere. -/
theorem Derives.exists_nests {tokens : List Token} {phrase : Phrase} (h : Derives tokens phrase) :
    ∃ n, Nests tokens phrase n := by
  induction h with
  | number p ht => exact ⟨_, .number p ht⟩
  | trueWord p ht => exact ⟨_, .trueWord p ht⟩
  | falseWord p ht => exact ⟨_, .falseWord p ht⟩
  | negate p ht he ih => exact ⟨_, .negate p ht ih.choose_spec⟩
  | not p ht he ih => exact ⟨_, .not p ht ih.choose_spec⟩
  | var p ht => exact ⟨_, .var p ht⟩
  | call p ht hl hargs hr ih => exact ⟨_, .call p ht hl ih.choose_spec hr⟩
  | userVar p hd hx => exact ⟨_, .userVar p hd hx⟩
  | assign p hd hx hq he ih => exact ⟨_, .assign p hd hx hq ih.choose_spec⟩
  | mathAssign p hd hx hq he ih => exact ⟨_, .mathAssign p hd hx hq ih.choose_spec⟩
  | block p hl hbody hr ih => exact ⟨_, .block p hl ih.choose_spec hr⟩
  | group hl he hr ih => exact ⟨_, .group hl ih.choose_spec hr⟩
  | ifElse p hi hl hcond hr hyes hs hno ihcond ihyes ihno =>
    exact ⟨_, .ifElse p hi hl ihcond.choose_spec hr ihyes.choose_spec hs ihno.choose_spec⟩
  | looser htier he ih => exact ⟨_, .looser htier ih.choose_spec⟩
  | binary p hleft hop hright ihleft ihright =>
    exact ⟨_, .binary p ihleft.choose_spec hop ihright.choose_spec⟩
  | last he ih => exact ⟨_, .last ih.choose_spec⟩
  | semicolon he hs hrest ih ihrest => exact ⟨_, .semicolon ih.choose_spec hs ihrest.choose_spec⟩
  | noArguments => exact ⟨_, .noArguments⟩
  | lastArgument he ih => exact ⟨_, .lastArgument ih.choose_spec⟩
  | comma he hs hrest ih ihrest => exact ⟨_, .comma ih.choose_spec hs ihrest.choose_spec⟩

/-- What nests is derived. -/
theorem Nests.derives {tokens : List Token} {phrase : Phrase} {n : Nat} (h : Nests tokens phrase n) :
    Derives tokens phrase := by
  induction h with
  | number p ht => exact .number p ht
  | trueWord p ht => exact .trueWord p ht
  | falseWord p ht => exact .falseWord p ht
  | negate p ht he ih => exact .negate p ht ih
  | not p ht he ih => exact .not p ht ih
  | var p ht => exact .var p ht
  | call p ht hl hargs hr ih => exact .call p ht hl ih hr
  | userVar p hd hx => exact .userVar p hd hx
  | assign p hd hx hq he ih => exact .assign p hd hx hq ih
  | mathAssign p hd hx hq he ih => exact .mathAssign p hd hx hq ih
  | block p hl hbody hr ih => exact .block p hl ih hr
  | group hl he hr ih => exact .group hl ih hr
  | ifElse p hi hl hcond hr hyes hs hno ihcond ihyes ihno =>
    exact .ifElse p hi hl ihcond hr ihyes hs ihno
  | looser htier he ih => exact ih.looser htier
  | binary p hleft hop hright ihleft ihright => exact .binary p ihleft hop ihright
  | last he ih => exact ih.last
  | semicolon he hs hrest ih ihrest => exact ih.semicolon hs ihrest
  | noArguments => exact .noArguments
  | lastArgument he ih => exact ih.lastArgument
  | comma he hs hrest ih ihrest => exact ih.comma hs ihrest

theorem Nests.loosen {ts : List Token} {tier tier' n : Nat} {isOpen : Bool} {e : Node}
    (h : Nests ts (.expression tier isOpen e) n) (hone : 1 ≤ tier') (htier : tier' ≤ tier) :
    Nests ts (.expression tier' isOpen e) n := by
  obtain ⟨k, rfl⟩ := Nat.exists_eq_add_of_le htier
  induction k with
  | zero => exact h
  | succ k ih => exact ih (h.looser (Nat.le_add_right_of_le hone)) (Nat.le_add_right tier' k)

/-- No more primary expressions are open at once than there are tokens. -/
theorem Nests.le_length {tokens : List Token} {phrase : Phrase} {n : Nat}
    (h : Nests tokens phrase n) : n ≤ tokens.length := by
  induction h <;> grind

end ExprFront
