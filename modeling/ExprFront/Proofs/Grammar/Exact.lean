import ExprFront.Proofs.Grammar.Reading
import ExprFront.Proofs.Grammar.Tracking

/-!
# Parsing is deriving

With room for its tokens, a program is parsed to the tree that the grammar derives, up to the
positions of nodes, and whatever is parsed is derived.
-/

namespace ExprFront

/-! ## Positions are free -/

/-- The tokens derive the phrase wherever its nodes stand. -/
def Phrase.IsDerivedAnywhere (tokens : List Token) : Phrase → Prop
  | .expression tier isOpen tree => ∀ tree', tree'.unplaced = tree.unplaced →
      Derives tokens (.expression tier isOpen tree')
  | .statements exprs last => ∀ exprs' last',
      Node.unplacedAll exprs' = Node.unplacedAll exprs → last'.unplaced = last.unplaced →
      Derives tokens (.statements exprs' last')
  | .arguments args => ∀ args', Node.unplacedAll args' = Node.unplacedAll args →
      Derives tokens (.arguments args')

/-- What is alike a binary operation is one. -/
theorem Node.eq_binary_of_unplaced_eq {tree left right : Node} {p : Position} {op : BinaryOp}
    (h : tree.unplaced = (binary p op left right).unplaced) :
    ∃ p' left' right', tree = binary p' op left' right' ∧ left'.unplaced = left.unplaced ∧
      right'.unplaced = right.unplaced := by
  cases op <;> cases tree <;> simp only [binary, unplaced, reduceCtorEq, math.injEq,
    compare.injEq, true_and] at h
  case math.math p' op' left' right' =>
    obtain ⟨rfl, hleft, hright⟩ := h
    exact ⟨p', left', right', rfl, hleft, hright⟩
  case compare.compare p' op' left' right' =>
    obtain ⟨rfl, hleft, hright⟩ := h
    exact ⟨p', left', right', rfl, hleft, hright⟩

theorem Derives.anywhere {tokens : List Token} {phrase : Phrase} (h : Derives tokens phrase) :
    phrase.IsDerivedAnywhere tokens := by
  -- only nodes alike those of the derivation can stand for the same tokens
  induction h with
  | number p ht =>
    intro tree' htree
    cases tree' <;> cases htree
    exact .number _ ht
  | trueWord p ht =>
    intro tree' htree
    cases tree' <;> cases htree
    exact .trueWord _ ht
  | falseWord p ht =>
    intro tree' htree
    cases tree' <;> cases htree
    exact .falseWord _ ht
  | negate p ht he ih =>
    intro tree' htree
    cases tree' <;> simp only [Node.unplaced, reduceCtorEq, Node.negate.injEq, true_and] at htree
    exact .negate _ ht (ih _ htree)
  | not p ht he ih =>
    intro tree' htree
    cases tree' <;> simp only [Node.unplaced, reduceCtorEq, Node.not.injEq, true_and] at htree
    exact .not _ ht (ih _ htree)
  | var p ht =>
    intro tree' htree
    cases tree' <;> cases htree
    exact .var _ ht
  | call p ht hl hargs hr ih =>
    intro tree' htree
    cases tree' <;> simp only [Node.unplaced, reduceCtorEq, Node.call.injEq, true_and] at htree
    obtain ⟨rfl, hargs'⟩ := htree
    exact .call _ ht hl (ih _ hargs') hr
  | userVar p hd hx =>
    intro tree' htree
    cases tree' <;> cases htree
    exact .userVar _ hd hx
  | assign p hd hx hq he ih =>
    intro tree' htree
    cases tree' <;> simp only [Node.unplaced, reduceCtorEq, Node.assign.injEq, true_and] at htree
    obtain ⟨rfl, hvalue⟩ := htree
    exact .assign _ hd hx hq (ih _ hvalue)
  | mathAssign p hd hx hq he ih =>
    intro tree' htree
    cases tree' <;> simp only [Node.unplaced, reduceCtorEq, Node.mathAssign.injEq, true_and] at htree
    obtain ⟨rfl, rfl, hvalue⟩ := htree
    exact .mathAssign _ hd hx hq (ih _ hvalue)
  | block p hl hbody hr ih =>
    intro tree' htree
    cases tree' <;> simp only [Node.unplaced, reduceCtorEq, Node.block.injEq, true_and] at htree
    exact .block _ hl (ih _ _ htree.1 htree.2) hr
  | group hl he hr ih => exact fun tree' htree => .group hl (ih tree' htree) hr
  | ifElse p hi hl hcond hr hyes hs hno ihcond ihyes ihno =>
    intro tree' htree
    cases tree' <;> simp only [Node.unplaced, reduceCtorEq, Node.ifElse.injEq, true_and] at htree
    obtain ⟨hcond', hyes', hno'⟩ := htree
    exact .ifElse _ hi hl (ihcond _ hcond') hr (ihyes _ hyes') hs (ihno _ hno')
  | looser htier he ih => exact fun tree' htree => .looser htier (ih tree' htree)
  | binary p hleft hop hright ihleft ihright =>
    intro tree' htree
    obtain ⟨p', left', right', rfl, hleft', hright'⟩ := Node.eq_binary_of_unplaced_eq htree
    exact .binary p' (ihleft left' hleft') hop (ihright right' hright')
  | last he ih =>
    intro exprs' last' hexprs hlast
    cases exprs' <;> cases hexprs
    exact (ih last' hlast).last
  | semicolon he hs hrest ih ihrest =>
    intro exprs' last' hexprs hlast
    cases exprs' <;> simp only [Node.unplacedAll, reduceCtorEq, List.cons.injEq] at hexprs
    exact (ih _ hexprs.1).semicolon hs (ihrest _ last' hexprs.2 hlast)
  | noArguments =>
    intro args' hargs
    cases args' <;> cases hargs
    exact .noArguments
  | lastArgument he ih =>
    intro args' hargs
    obtain _ | ⟨e', _ | ⟨e'', rest⟩⟩ := args' <;>
      simp only [Node.unplacedAll, reduceCtorEq, List.cons.injEq, and_false, and_true] at hargs
    exact (ih e' hargs).lastArgument
  | comma he hs hrest ih ihrest =>
    intro args' hargs
    cases args' <;> simp only [Node.unplacedAll, reduceCtorEq, List.cons.injEq] at hargs
    exact (ih _ hargs.1).comma hs (ihrest _ hargs.2)

/-- A program is one wherever the nodes of its tree stand. -/
theorem IsProgram.anywhere {tokens : List Token} {tree tree' : Node} (h : IsProgram tokens tree)
    (htree : tree'.unplaced = tree.unplaced) : IsProgram tokens tree' := by
  obtain ⟨p, exprs, last, rfl, hderives⟩ := h
  cases tree' <;> simp only [Node.unplaced, reduceCtorEq, Node.block.injEq, true_and] at htree
  exact ⟨_, _, _, rfl, hderives.anywhere _ _ htree.1 htree.2⟩

/-! ## Programs -/

namespace Parse

/-- A program is its statements, if they leave nothing over. -/
theorem program_apply (p : Parse Node) (c : Cursor) :
    program p c = match statements p c with
      | .ok (exprs, last) c' =>
        match c'.ahead with
        | [] => .ok (.block (c.current?.elim .nowhere Token.position) exprs last) c'
        | t :: _ => .error (.unexpectedToken t TokenKind.continuation) c'
      | .error e c' => .error e c' := by
  have hbody : blockBody p c = match statements p c with
      | .ok (exprs, last) c' => .ok (.block (c.current?.elim .nowhere Token.position) exprs last) c'
      | .error e c' => .error e c' := by
    show (statements p >>= fun s => _) c = _
    rw [bind_apply]
    cases statements p c with
    | error e c' => rfl
    | ok s c' =>
      cases hc : c.current? <;> rfl
  show (blockBody p >>= fun block => _) c = _
  rw [bind_apply, hbody]
  cases statements p c with
  | error e c' => rfl
  | ok s c' =>
    obtain ⟨passed, ahead, depth⟩ := c'
    cases ahead <;> rfl

end Parse

open Parse

/-- Parsing begins with no primary expression open, so all of the depth is room. -/
theorem within_program (maxDepth : Int) (tokens : List Token) :
    within maxDepth program (.ofTokens tokens) =
      program (primary maxDepth.toNat) (.ofTokens tokens) := by
  have hroom : (Cursor.ofTokens tokens).room maxDepth = maxDepth.toNat := by
    simp [Cursor.room, Cursor.ofTokens]
  unfold within
  rw [hroom]

theorem parse_eq (maxDepth : Int) (tokens : List Token) :
    parse maxDepth tokens = match program (primary maxDepth.toNat) (.ofTokens tokens) with
      | .ok tree _ => .ok tree
      | .error e _ => .error e := by
  rw [← within_program]
  rfl

/-- Where parsing fails a program has been read that far. -/
theorem exists_within_of_error {maxDepth : Int} {tokens : List Token} {e : ParseError}
    (h : parse maxDepth tokens = .error e) :
    ∃ c, within maxDepth program (.ofTokens tokens) = .error e c := by
  unfold parse at h
  split at h <;> cases h
  exact ⟨_, by assumption⟩

/-- What is parsed is derived, however little room there is. -/
theorem isProgram_of_parse {maxDepth : Int} {tokens : List Token} {tree : Node}
    (h : parse maxDepth tokens = .ok tree) : IsProgram tokens tree := by
  have hmeets := (Tracks.statements_primary maxDepth.toNat (.ofTokens tokens)).meets
  rw [parse_eq, program_apply] at h
  cases hrun : statements (primary maxDepth.toNat) (.ofTokens tokens) with
  | error e c => simp [hrun] at h
  | ok es c =>
    obtain ⟨exprs, last⟩ := es
    rw [hrun] at h hmeets
    obtain ⟨read, hread, hderives⟩ := hmeets
    cases hc : c.ahead with
    | cons t rest => simp [hc] at h
    | nil =>
      simp only [hc, Except.ok.injEq] at h
      -- nothing is ahead, so the statements are all of the tokens
      rw [hc, List.append_nil] at hread
      subst hread
      exact ⟨_, exprs, last, h.symm, hderives⟩

/-- With room for its tokens, what is derived is parsed. -/
theorem parse_of_isProgram {maxDepth : Int} {tokens : List Token} {tree : Node}
    (h : IsProgram tokens tree) (hdepth : tokens.length ≤ maxDepth) :
    ∃ tree', parse maxDepth tokens = .ok tree' ∧ tree'.unplaced = tree.unplaced := by
  obtain ⟨p, exprs, last, rfl, hderives⟩ := h
  obtain ⟨exprs', last', hexprs, hlast, hread⟩ := hderives.isRead
  -- the end of the tokens stops statements
  have haccepts := hread none (Stops.at_end 1 true) Follows.at_end (by rintro t ⟨⟩)
  have hrun : statements (primary maxDepth.toNat) (.ofTokens tokens) = .ok (exprs', last') _ :=
    haccepts maxDepth.toNat (.ofTokens tokens) [] (by omega) (List.append_nil tokens).symm rfl
  refine ⟨.block ((Cursor.ofTokens tokens).current?.elim .nowhere Token.position) exprs' last',
    ?_, by simp only [Node.unplaced, hexprs, hlast]⟩
  rw [parse_eq, program_apply, hrun]
  rfl

/-- A row of tokens is at most one program. -/
theorem IsProgram.unique {tokens : List Token} {tree tree' : Node} (h : IsProgram tokens tree)
    (h' : IsProgram tokens tree') : tree.unplaced = tree'.unplaced := by
  obtain ⟨t, ht, halike⟩ := parse_of_isProgram h (Int.le_refl _)
  obtain ⟨t', ht', halike'⟩ := parse_of_isProgram h' (Int.le_refl _)
  rw [ht, Except.ok.injEq] at ht'
  rw [← halike, ← halike', ht']

/-- Parsing with room for all tokens gives a tree, up to positions, exactly if the tokens derive
it as a program. -/
theorem parse_exact (maxDepth : Int) (tokens : List Token) (tree : Node)
    (hdepth : tokens.length ≤ maxDepth) :
    (∃ tree', parse maxDepth tokens = .ok tree' ∧ tree'.unplaced = tree.unplaced) ↔
      IsProgram tokens tree := by
  constructor
  · rintro ⟨tree', hparse, halike⟩
    exact (isProgram_of_parse hparse).anywhere halike.symm
  · intro h
    exact parse_of_isProgram h hdepth

/-- In `x * $a = x + x` the assignment takes the sum: it is not the left operand of one. -/
theorem parse_exact_open_operand :
    let tokens : List Token := [.bare .identifier (.text "x"), .bare .star, .bare .dollar,
      .bare .identifier (.text "a"), .bare .equal, .bare .identifier (.text "x"), .bare .plus,
      .bare .identifier (.text "x")]
    let x : Node := .var .first (.text "x")
    (∃ tree, parse 8 tokens = .ok tree ∧ tree.unplaced = Node.unplaced (.block .first []
        (.math .first .mul x (.assign .first (.text "a") (.math .first .add x x))))) ∧
      ¬ IsProgram tokens (.block .first []
        (.math .first .add (.math .first .mul x (.assign .first (.text "a") x)) x)) := by
  intro tokens x
  have hx : Derives [.bare .identifier (.text "x")] (.expression 5 false x) := .var .first rfl
  have hsum : Derives _ (.expression 3 false (.math .first .add x x)) :=
    .binary (t := .bare .plus) .first (hx.loosen (by decide) (by decide)) rfl
      (hx.loosen (by decide) (by decide))
  have hassign : Derives _ (.expression 5 true (.assign .first (.text "a") _)) :=
    .assign (d := .bare .dollar) (x := .bare .identifier (.text "a")) (q := .bare .equal) .first
      rfl rfl rfl (hsum.loosen (by decide) (by decide))
  have hproduct : Derives _ (.expression 4 true (.math .first .mul x _)) :=
    .binary (t := .bare .star) .first (hx.loosen (by decide) (by decide)) rfl hassign
  have hprogram : IsProgram tokens _ :=
    ⟨.first, [], _, rfl, (hproduct.loosen (by decide) (by decide)).last⟩
  have hparse := (parse_exact 8 tokens _ (by decide)).2 hprogram
  refine ⟨hparse, fun h => ?_⟩
  obtain ⟨tree, hrun, halike⟩ := hparse
  obtain ⟨tree', hrun', halike'⟩ := (parse_exact 8 tokens _ (by decide)).2 h
  rw [hrun, Except.ok.injEq] at hrun'
  subst hrun'
  rw [halike] at halike'
  simp [Node.unplaced] at halike'

end ExprFront
