import ExprFront.Proofs.Grammar.Nesting
import ExprFront.Proofs.Tree.Unplaced

/-!
# Where the nodes of a phrase stand

The rules of the grammar once more, each with the position of its node. A node stands at the first
token of its rule; only for a binary operation, which begins with its left operand, there is a
choice. Taken from the operand, its position leaves out the parentheses that the operand begins with.
-/

namespace ExprFront

/-- The phrase, or one that differs from it in the positions of nodes alone, has the property. -/
def Phrase.HoldsUpToPlaces (property : Phrase → Prop) : Phrase → Prop
  | .expression tier isOpen tree => ∃ tree', tree'.unplaced = tree.unplaced ∧
      property (.expression tier isOpen tree')
  | .statements exprs last => ∃ exprs' last',
      Node.unplacedAll exprs' = Node.unplacedAll exprs ∧ last'.unplaced = last.unplaced ∧
      property (.statements exprs' last')
  | .arguments args => ∃ args', Node.unplacedAll args' = Node.unplacedAll args ∧
      property (.arguments args')

theorem Phrase.HoldsUpToPlaces.imp {property property' : Phrase → Prop} {phrase : Phrase}
    (h : phrase.HoldsUpToPlaces property) (himp : ∀ phrase, property phrase → property' phrase) :
    phrase.HoldsUpToPlaces property' := by
  cases phrase with
  | expression tier isOpen tree =>
    obtain ⟨tree', htree, hproperty⟩ := h
    exact ⟨tree', htree, himp _ hproperty⟩
  | statements exprs last =>
    obtain ⟨exprs', last', hexprs, hlast, hproperty⟩ := h
    exact ⟨exprs', last', hexprs, hlast, himp _ hproperty⟩
  | arguments args =>
    obtain ⟨args', hargs, hproperty⟩ := h
    exact ⟨args', hargs, himp _ hproperty⟩

/-- The position of the first token. -/
def firstPosition (tokens : List Token) : Position :=
  tokens.head?.elim .nowhere Token.position

/-- The position of the first token that is no opening parenthesis. -/
def leadPosition (tokens : List Token) : Position :=
  (tokens.find? (·.kind ≠ .leftParen)).elim .nowhere Token.position

theorem leadPosition_cons {t : Token} (h : t.kind ≠ .leftParen) (rest : List Token) :
    leadPosition (t :: rest) = t.position := by
  simp [leadPosition, h]

theorem leadPosition_leftParen {t : Token} (h : t.kind = .leftParen) (rest : List Token) :
    leadPosition (t :: rest) = leadPosition rest := by
  simp [leadPosition, h]

/-- The tokens derive the phrase with so many primary expressions open at once, and each node stands
at the first of the tokens that it is derived from. A binary operation stands where `place` puts
these tokens. -/
inductive Placed (place : List Token → Position) : List Token → Phrase → Nat → Prop where
  | number {t : Token} (ht : t.kind = .number) :
      Placed place [t] (.expression 5 false (.number t.position t.payload)) 1
  | trueWord {t : Token} (ht : t.kind = .trueWord) :
      Placed place [t] (.expression 5 false (.bool t.position true)) 1
  | falseWord {t : Token} (ht : t.kind = .falseWord) :
      Placed place [t] (.expression 5 false (.bool t.position false)) 1
  | negate {t : Token} {ts : List Token} {isOpen : Bool} {e : Node} {n : Nat}
      (ht : t.kind = .minus) (he : Placed place ts (.expression 5 isOpen e) n) :
      Placed place (t :: ts) (.expression 5 isOpen (.negate t.position e)) (n + 1)
  | not {t : Token} {ts : List Token} {isOpen : Bool} {e : Node} {n : Nat}
      (ht : t.kind = .bang) (he : Placed place ts (.expression 5 isOpen e) n) :
      Placed place (t :: ts) (.expression 5 isOpen (.not t.position e)) (n + 1)
  | var {t : Token} (ht : t.kind = .identifier) :
      Placed place [t] (.expression 5 false (.var t.position t.payload)) 1
  | call {t l r : Token} {ts : List Token} {args : List Node} {n : Nat}
      (ht : t.kind = .identifier) (hl : l.kind = .leftParen)
      (hargs : Placed place ts (.arguments args) n) (hr : r.kind = .rightParen) :
      Placed place (t :: l :: (ts ++ [r]))
        (.expression 5 false (.call t.position t.payload args)) (n + 1)
  | userVar {d x : Token} (hd : d.kind = .dollar) (hx : x.kind = .identifier) :
      Placed place [d, x] (.expression 5 false (.userVar d.position x.payload)) 1
  | assign {d x q : Token} {ts : List Token} {isOpen : Bool} {e : Node} {n : Nat}
      (hd : d.kind = .dollar) (hx : x.kind = .identifier) (hq : q.kind = .equal)
      (he : Placed place ts (.expression 1 isOpen e) n) :
      Placed place (d :: x :: q :: ts)
        (.expression 5 true (.assign d.position x.payload e)) (n + 1)
  | mathAssign {d x q : Token} {ts : List Token} {isOpen : Bool} {op : MathOp} {e : Node} {n : Nat}
      (hd : d.kind = .dollar) (hx : x.kind = .identifier) (hq : q.kind.assignOp? = some op)
      (he : Placed place ts (.expression 1 isOpen e) n) :
      Placed place (d :: x :: q :: ts)
        (.expression 5 true (.mathAssign d.position op x.payload e)) (n + 1)
  | block {l r : Token} {ts : List Token} {exprs : List Node} {last : Node} {n : Nat}
      (hl : l.kind = .leftBrace) (hbody : Placed place ts (.statements exprs last) n)
      (hr : r.kind = .rightBrace) :
      Placed place (l :: (ts ++ [r])) (.expression 5 false (.block l.position exprs last)) (n + 1)
  | group {l r : Token} {ts : List Token} {isOpen : Bool} {e : Node} {n : Nat}
      (hl : l.kind = .leftParen) (he : Placed place ts (.expression 1 isOpen e) n)
      (hr : r.kind = .rightParen) :
      Placed place (l :: (ts ++ [r])) (.expression 5 false e) (n + 1)
  | ifElse {i l r s : Token} {cs ys ns : List Token} {openCond openYes openNo : Bool}
      {cond yes no : Node} {nCond nYes nNo : Nat} (hi : i.kind = .ifWord)
      (hl : l.kind = .leftParen) (hcond : Placed place cs (.expression 1 openCond cond) nCond)
      (hr : r.kind = .rightParen) (hyes : Placed place ys (.expression 1 openYes yes) nYes)
      (hs : s.kind = .elseWord) (hno : Placed place ns (.expression 1 openNo no) nNo) :
      Placed place (i :: l :: (cs ++ r :: (ys ++ s :: ns)))
        (.expression 5 true (.ifElse i.position cond yes no)) (max nCond (max nYes nNo) + 1)
  | looser {ts : List Token} {tier n : Nat} {isOpen : Bool} {e : Node} (htier : 1 ≤ tier)
      (he : Placed place ts (.expression (tier + 1) isOpen e) n) :
      Placed place ts (.expression tier isOpen e) n
  | binary {ls rs : List Token} {t : Token} {op : BinaryOp} {isOpen : Bool} {left right : Node}
      {nLeft nRight : Nat} (hleft : Placed place ls (.expression op.tier false left) nLeft)
      (hop : t.kind.binaryOp? = some op)
      (hright : Placed place rs (.expression (op.tier + 1) isOpen right) nRight) :
      Placed place (ls ++ t :: rs)
        (.expression op.tier isOpen (.binary (place (ls ++ t :: rs)) op left right))
        (max nLeft nRight)
  | last {ts : List Token} {isOpen : Bool} {e : Node} {n : Nat}
      (he : Placed place ts (.expression 1 isOpen e) n) : Placed place ts (.statements [] e) n
  | semicolon {ts us : List Token} {s : Token} {isOpen : Bool} {e : Node} {exprs : List Node}
      {last : Node} {n nRest : Nat} (he : Placed place ts (.expression 1 isOpen e) n)
      (hs : s.kind = .semicolon) (hrest : Placed place us (.statements exprs last) nRest) :
      Placed place (ts ++ s :: us) (.statements (e :: exprs) last) (max n nRest)
  | noArguments : Placed place [] (.arguments []) 0
  | lastArgument {ts : List Token} {isOpen : Bool} {e : Node} {n : Nat}
      (he : Placed place ts (.expression 1 isOpen e) n) : Placed place ts (.arguments [e]) n
  | comma {ts us : List Token} {s : Token} {isOpen : Bool} {e : Node} {args : List Node}
      {n nRest : Nat} (he : Placed place ts (.expression 1 isOpen e) n) (hs : s.kind = .comma)
      (hrest : Placed place us (.arguments args) nRest) :
      Placed place (ts ++ s :: us) (.arguments (e :: args)) (max n nRest)

section

variable {place : List Token → Position} {tokens : List Token} {phrase : Phrase} {n : Nat}

/-- What is placed nests as deeply as it is placed. -/
theorem Placed.nests (h : Placed place tokens phrase n) : Nests tokens phrase n := by
  induction h with
  | number ht => exact .number _ ht
  | trueWord ht => exact .trueWord _ ht
  | falseWord ht => exact .falseWord _ ht
  | negate ht he ih => exact .negate _ ht ih
  | not ht he ih => exact .not _ ht ih
  | var ht => exact .var _ ht
  | call ht hl hargs hr ih => exact .call _ ht hl ih hr
  | userVar hd hx => exact .userVar _ hd hx
  | assign hd hx hq he ih => exact .assign _ hd hx hq ih
  | mathAssign hd hx hq he ih => exact .mathAssign _ hd hx hq ih
  | block hl hbody hr ih => exact .block _ hl ih hr
  | group hl he hr ih => exact .group hl ih hr
  | ifElse hi hl hcond hr hyes hs hno ihcond ihyes ihno =>
    exact .ifElse _ hi hl ihcond hr ihyes hs ihno
  | looser htier he ih => exact ih.looser htier
  | binary hleft hop hright ihleft ihright => exact .binary _ ihleft hop ihright
  | last he ih => exact ih.last
  | semicolon he hs hrest ih ihrest => exact ih.semicolon hs ihrest
  | noArguments => exact .noArguments
  | lastArgument he ih => exact ih.lastArgument
  | comma he hs hrest ih ihrest => exact ih.comma hs ihrest

/-- The nodes of any derivation can be put in their places. -/
theorem Nests.exists_placed (place : List Token → Position) (h : Nests tokens phrase n) :
    phrase.HoldsUpToPlaces fun phrase' => Placed place tokens phrase' n := by
  induction h with
  | number p ht => exact ⟨_, by rfl, .number ht⟩
  | trueWord p ht => exact ⟨_, by rfl, .trueWord ht⟩
  | falseWord p ht => exact ⟨_, by rfl, .falseWord ht⟩
  | negate p ht he ih =>
    obtain ⟨e', he', hplaced⟩ := ih
    exact ⟨_, by simp only [Node.unplaced, he'], .negate ht hplaced⟩
  | not p ht he ih =>
    obtain ⟨e', he', hplaced⟩ := ih
    exact ⟨_, by simp only [Node.unplaced, he'], .not ht hplaced⟩
  | var p ht => exact ⟨_, by rfl, .var ht⟩
  | call p ht hl hargs hr ih =>
    obtain ⟨args', hargs', hplaced⟩ := ih
    exact ⟨_, by simp only [Node.unplaced, hargs'], .call ht hl hplaced hr⟩
  | userVar p hd hx => exact ⟨_, by rfl, .userVar hd hx⟩
  | assign p hd hx hq he ih =>
    obtain ⟨e', he', hplaced⟩ := ih
    exact ⟨_, by simp only [Node.unplaced, he'], .assign hd hx hq hplaced⟩
  | mathAssign p hd hx hq he ih =>
    obtain ⟨e', he', hplaced⟩ := ih
    exact ⟨_, by simp only [Node.unplaced, he'], .mathAssign hd hx hq hplaced⟩
  | block p hl hbody hr ih =>
    obtain ⟨exprs', last', hexprs, hlast, hplaced⟩ := ih
    exact ⟨_, by simp only [Node.unplaced, hexprs, hlast], .block hl hplaced hr⟩
  | group hl he hr ih =>
    obtain ⟨e', he', hplaced⟩ := ih
    exact ⟨e', he', .group hl hplaced hr⟩
  | ifElse p hi hl hcond hr hyes hs hno ihcond ihyes ihno =>
    obtain ⟨cond', hcond', hplaced⟩ := ihcond
    obtain ⟨yes', hyes', hplaced'⟩ := ihyes
    obtain ⟨no', hno', hplaced''⟩ := ihno
    exact ⟨_, by simp only [Node.unplaced, hcond', hyes', hno'],
      .ifElse hi hl hplaced hr hplaced' hs hplaced''⟩
  | looser htier he ih =>
    obtain ⟨e', he', hplaced⟩ := ih
    exact ⟨e', he', .looser htier hplaced⟩
  | binary p hleft hop hright ihleft ihright =>
    obtain ⟨left', hleft', hplaced⟩ := ihleft
    obtain ⟨right', hright', hplaced'⟩ := ihright
    exact ⟨_, by simp only [Node.unplaced_binary, hleft', hright'], .binary hplaced hop hplaced'⟩
  | last he ih =>
    obtain ⟨e', he', hplaced⟩ := ih
    exact ⟨[], e', rfl, he', .last hplaced⟩
  | semicolon he hs hrest ih ihrest =>
    obtain ⟨e', he', hplaced⟩ := ih
    obtain ⟨exprs', last', hexprs, hlast, hplaced'⟩ := ihrest
    exact ⟨e' :: exprs', last', by simp only [Node.unplacedAll, he', hexprs], hlast,
      .semicolon hplaced hs hplaced'⟩
  | noArguments => exact ⟨[], rfl, .noArguments⟩
  | lastArgument he ih =>
    obtain ⟨e', he', hplaced⟩ := ih
    exact ⟨[e'], by simp only [Node.unplacedAll, he'], .lastArgument hplaced⟩
  | comma he hs hrest ih ihrest =>
    obtain ⟨e', he', hplaced⟩ := ih
    obtain ⟨args', hargs, hplaced'⟩ := ihrest
    exact ⟨e' :: args', by simp only [Node.unplacedAll, he', hargs], .comma hplaced hs hplaced'⟩

end

/-! ## Behind the parentheses -/

/-- An expression stands at the first of its tokens that is no opening parenthesis, whatever comes
behind them. -/
def Phrase.IsLed (tokens : List Token) : Phrase → Prop
  | .expression _ _ tree => ∀ rest, tree.position = leadPosition (tokens ++ rest)
  | _ => True

theorem Phrase.IsLed.of_cons {t : Token} {ts : List Token} {tier : Nat} {isOpen : Bool}
    {tree : Node} (ht : t.kind ≠ .leftParen) (htree : tree.position = t.position) :
    (Phrase.expression tier isOpen tree).IsLed (t :: ts) := by
  intro rest
  rw [List.cons_append, leadPosition_cons ht, htree]

theorem Placed.isLed {tokens : List Token} {phrase : Phrase} {n : Nat}
    (h : Placed leadPosition tokens phrase n) : phrase.IsLed tokens := by
  induction h with
  -- only parentheses for grouping come before the token of a node
  | number h | trueWord h | falseWord h | negate h | not h | var h | call h | userVar h | assign h
  | mathAssign h | block h | ifElse h => exact .of_cons (by rw [h]; decide) rfl
  | group hl he hr ih =>
    intro rest
    rw [List.cons_append, leadPosition_leftParen hl, List.append_assoc]
    exact ih _
  | looser htier he ih => exact ih
  | @binary ls rs t op isOpen left right nLeft nRight hleft hop hright ihleft ihright =>
    -- the left operand holds the token that leads, so what is behind does not matter
    intro rest
    rw [Node.position_binary, ← ihleft, List.append_assoc, ← ihleft]
  | last | semicolon | noArguments | lastArgument | comma => trivial

end ExprFront
