import ExprFront.Proofs.Grammar.Limit
import ExprFront.Proofs.Tree.Preorder

/-!
# Where the nodes of a parsed tree stand

The trees that are parsed are the programs with their nodes in their places. A binary operation takes
its position from its left operand, and so it stands behind the parentheses that the operand begins
with, not at its own first token.
-/

namespace ExprFront

/-- The tokens are a program with so many primary expressions open at once. The tree is the block of
its statements, at the first of all tokens, and the nodes below it are in their places. -/
def IsPlacedProgram (place : List Token → Position) (tokens : List Token) (tree : Node) (n : Nat) :
    Prop :=
  ∃ exprs last, tree = .block (firstPosition tokens) exprs last ∧
    Placed place tokens (.statements exprs last) n

section

variable {place : List Token → Position} {tokens : List Token} {tree : Node} {n : Nat} {d : Int}

/-- A program is parsed with its nodes in their places, if the limit allows it. -/
theorem IsPlacedProgram.parse (h : IsPlacedProgram leadPosition tokens tree n) (hd : n ≤ d) :
    parse d tokens = .ok tree := by
  obtain ⟨exprs, last, rfl, hplaced⟩ := h
  have hread : ReadsStatementsWithin n tokens exprs last := hplaced.isReadAsIs
  exact (hread.parse (hplaced.nests.pos (by rintro args ⟨⟩)) d).1 hd

/-- What is parsed has its nodes in their places. -/
theorem exists_isPlacedProgram (h : parse d tokens = .ok tree) :
    ∃ n : Nat, n ≤ d ∧ IsPlacedProgram leadPosition tokens tree n := by
  obtain ⟨p, exprs, last, rfl, hderives⟩ := isProgram_of_parse h
  obtain ⟨n, hnests⟩ := hderives.exists_nests
  obtain ⟨exprs', last', -, -, hplaced⟩ := hnests.exists_placed leadPosition
  have hle : n ≤ d := hnests.le_of_parse h
  have hprogram : IsPlacedProgram leadPosition tokens _ n := ⟨exprs', last', rfl, hplaced⟩
  -- a parse has one outcome
  have htree := (hprogram.parse hle).symm.trans h
  rw [Except.ok.injEq] at htree
  exact ⟨n, hle, htree ▸ hprogram⟩

theorem Placed.exists_last {last : Node} (h : Placed place tokens (.statements [] last) n) :
    ∃ isOpen, Placed place tokens (.expression 1 isOpen last) n := by
  cases h with
  | last he => exact ⟨_, he⟩

/-- No parentheses enclose an expression whose tokens do not end with one, so a binary operation is
derived from all of them. -/
theorem Placed.position_eq {tier : Nat} {isOpen : Bool} {left : Node}
    (h : Placed place tokens (.expression tier isOpen tree) n) (htree : tree.leftOperand? = some left)
    (hlast : ∀ ts r, tokens = ts ++ [r] → r.kind ≠ .rightParen) :
    tree.position = place tokens := by
  generalize hphrase : Phrase.expression tier isOpen tree = phrase at h
  induction h generalizing tier isOpen with
  | @group l r ts _ _ _ hl he hr ih => exact absurd hr (hlast (l :: ts) r rfl)
  | looser htier he ih =>
    cases hphrase
    exact ih hlast rfl
  | binary hleft hop hright ihleft ihright =>
    cases hphrase
    exact Node.position_binary _ _ _ _
  | _ => cases hphrase <;> cases htree

end

/-- Parsing gives just the trees of programs whose nodes are in their places. The block stands at the
first of all tokens and every other node at the first of those that it is derived from, without
parentheses around it; but a binary operation stands at the first of these that is no opening
parenthesis. -/
theorem parse_eq_ok_iff_placed (maxDepth : Int) (tokens : List Token) (tree : Node) :
    parse maxDepth tokens = .ok tree ↔
      ∃ n : Nat, n ≤ maxDepth ∧ IsPlacedProgram leadPosition tokens tree n := by
  constructor
  · exact exists_isPlacedProgram
  · rintro ⟨n, hn, hprogram⟩
    exact hprogram.parse hn

/-- In `(x) + y` the sum is derived from all tokens, and does not stand at the first. -/
theorem parse_grouped_operand :
    let tokens : List Token := [.cut [] .leftParen .absent ⟨1, 1⟩ 0 1,
      .cut [] .identifier (.text "x") ⟨1, 2⟩ 1 2, .cut [] .rightParen .absent ⟨1, 3⟩ 2 3,
      .cut [] .plus .absent ⟨1, 5⟩ 4 5, .cut [] .identifier (.text "y") ⟨1, 7⟩ 6 7]
    ∃ tree, parse 2 tokens = .ok tree ∧ ∀ n, ¬ IsPlacedProgram firstPosition tokens tree n := by
  intro tokens
  refine ⟨.block ⟨1, 1⟩ [] (.math ⟨1, 2⟩ .add (.var ⟨1, 2⟩ (.text "x")) (.var ⟨1, 7⟩ (.text "y"))),
    rfl, ?_⟩
  rintro n ⟨exprs, last, htree, hplaced⟩
  cases htree
  obtain ⟨isOpen, hsum⟩ := hplaced.exists_last
  have hlast : ∀ ts r, tokens = ts ++ [r] → r.kind ≠ .rightParen := by
    intro ts r heq hr
    have hlast := congrArg List.getLast? heq
    rw [List.getLast?_concat] at hlast
    cases hlast
    cases hr
  exact absurd (hsum.position_eq rfl hlast) (by decide)

end ExprFront
