import ExprFront.Proofs.Grammar.Standing
import ExprFront.Proofs.Scan.Joining
import Mathlib.Data.List.Chain

/-!
# Trees in document order

The tokens of a text follow one another, so the nodes of its tree do as well: each node takes the
position of one of its tokens, and the tokens of its children are apart. Only the position of a left
operand is taken a second time, by its operation.
-/

namespace ExprFront

/-- At the position or before it. -/
def Position.UpTo (p q : Position) : Prop :=
  p = q ∨ p.Before q

namespace Node

/-- The node stands before the other, or at the same position if it is a binary operation. -/
def Precedes (a b : Node) : Prop :=
  a.position.Before b.position ∨ a.leftOperand?.isSome ∧ a.position = b.position

theorem Precedes.upTo {a b : Node} (h : a.Precedes b) : a.position.UpTo b.position :=
  h.symm.imp_left And.right

/-- If the node shares its position with the next, it is a binary operation with the next as its left
operand. -/
def SharesLeft (a b : Node) : Prop :=
  a.position = b.position → a.leftOperand? = some b

theorem SharesLeft.of_before {a b : Node} (h : a.position.Before b.position) : a.SharesLeft b :=
  fun heq => absurd heq h.ne

end Node

open Node

/-- Each token stands before those behind it. -/
def Advancing (tokens : List Token) : Prop :=
  tokens.Pairwise fun t u => t.position.Before u.position

/-- The trees stand one behind the other, with their nodes in document order at positions of the
tokens. -/
structure Arranged (tokens : List Token) (trees : List Node) : Prop where
  within : ∀ node ∈ preorderAll trees, ∃ t ∈ tokens, t.position = node.position
  ordered : (preorderAll trees).Pairwise Precedes
  shares : (preorderAll trees).IsChain SharesLeft
  apart : trees.Pairwise fun a b => a.position.Before b.position
  siblings : ∀ node ∈ preorderAll trees,
    node.children.Pairwise fun a b => a.position.Before b.position

namespace Arranged

variable {ts us : List Token} {trees trees' : List Node}

theorem nil : Arranged ts [] :=
  ⟨by simp [preorderAll], .nil, .nil, .nil, by simp [preorderAll]⟩

theorem mono (h : Arranged ts trees) (hsub : ts.Sublist us) : Arranged us trees := by
  refine ⟨fun node hnode => ?_, h.ordered, h.shares, h.apart, h.siblings⟩
  obtain ⟨t, ht, heq⟩ := h.within node hnode
  exact ⟨t, hsub.subset ht, heq⟩

/-- Rows of trees go together if a token parts the tokens of the one from those of the other. -/
theorem separate {s : Token} (hadvancing : Advancing (ts ++ s :: us))
    (h : Advancing ts → Arranged ts trees) (h' : Advancing us → Arranged us trees') :
    Arranged (ts ++ s :: us) (trees ++ trees') := by
  obtain ⟨hts, hus, hbefore⟩ := List.pairwise_append.1 hadvancing
  replace h := h hts
  replace h' := h' hus.of_cons
  have hapart : ∀ a ∈ preorderAll trees, ∀ b ∈ preorderAll trees',
      a.position.Before b.position := by
    intro a ha b hb
    obtain ⟨t, ht, hta⟩ := h.within a ha
    obtain ⟨u, hu, hub⟩ := h'.within b hb
    rw [← hta, ← hub]
    exact hbefore t ht u (List.mem_cons_of_mem s hu)
  constructor
  · rw [preorderAll_append]
    refine List.forall_mem_append.2 ⟨(h.mono ?_).within, (h'.mono ?_).within⟩
    · exact List.sublist_append_left ts (s :: us)
    · exact (List.sublist_cons_self s us).trans (List.sublist_append_right ts (s :: us))
  · rw [preorderAll_append]
    exact List.pairwise_append.2 ⟨h.ordered, h'.ordered, fun a ha b hb => .inl (hapart a ha b hb)⟩
  · rw [preorderAll_append]
    exact List.isChain_append.2 ⟨h.shares, h'.shares, fun a ha b hb =>
      .of_before (hapart a (List.mem_of_getLast? ha) b (List.mem_of_head? hb))⟩
  · exact List.pairwise_append.2 ⟨h.apart, h'.apart, fun a ha b hb =>
      hapart a (mem_preorderAll_of_mem ha) b (mem_preorderAll_of_mem hb)⟩
  · rw [preorderAll_append]
    exact List.forall_mem_append.2 ⟨h.siblings, h'.siblings⟩

/-- A node goes above its children. -/
theorem above {node : Node} (h : Arranged ts node.children)
    (hwithin : ∃ t ∈ ts, t.position = node.position)
    (hordered : ∀ x ∈ preorderAll node.children, node.Precedes x)
    (hshares : ∀ x ∈ (preorderAll node.children).head?, node.SharesLeft x) :
    Arranged ts [node] := by
  have hpreorder : preorderAll [node] = node :: preorderAll node.children := by
    rw [← preorder_eq, preorderAll, preorderAll, List.append_nil]
  constructor
  · rw [hpreorder]
    exact List.forall_mem_cons.2 ⟨hwithin, h.within⟩
  · rw [hpreorder]
    exact List.pairwise_cons.2 ⟨hordered, h.ordered⟩
  · rw [hpreorder]
    exact List.isChain_cons.2 ⟨hshares, h.shares⟩
  · exact List.pairwise_singleton _ _
  · rw [hpreorder]
    exact List.forall_mem_cons.2 ⟨h.apart, h.siblings⟩

/-- A node stands before its children if its token is before theirs. -/
theorem node {t : Token} {node : Node} (hadvancing : Advancing (t :: us)) (hsub : ts.Sublist us)
    (hnode : t.position = node.position) (h : Advancing ts → Arranged ts node.children) :
    Arranged (t :: us) [node] := by
  obtain ⟨hbefore, hus⟩ := List.pairwise_cons.1 hadvancing
  replace h := (h (hus.sublist hsub)).mono hsub
  have hbelow : ∀ x ∈ preorderAll node.children, node.position.Before x.position := by
    intro x hx
    obtain ⟨u, hu, heq⟩ := h.within x hx
    rw [← hnode, ← heq]
    exact hbefore u hu
  exact (h.mono (List.sublist_cons_self t us)).above ⟨t, List.mem_cons_self, hnode⟩
    (fun x hx => .inl (hbelow x hx)) fun x hx => .of_before (hbelow x (List.mem_of_head? hx))

/-- A binary operation stands at the position of its left operand. -/
theorem binary {op : BinaryOp} {left right : Node} (h : Arranged ts [left, right]) :
    Arranged ts [.binary left.position op left right] := by
  -- below the operation the left operand comes first
  obtain ⟨below, hbelow⟩ : ∃ below, preorderAll [left, right] = left :: below :=
    ⟨_, by rw [preorderAll, preorder_eq, List.cons_append]⟩
  have hordered := h.ordered
  have hwithin := h.within left
  rw [hbelow] at hordered hwithin
  apply above <;> simp only [children_binary, hbelow, position_binary]
  · exact h
  · exact hwithin List.mem_cons_self
  · have hleft : ∀ x ∈ left :: below, left.position.UpTo x.position :=
      List.forall_mem_cons.2 ⟨.inl rfl, fun x hx => (List.rel_of_pairwise_cons hordered hx).upTo⟩
    intro x hx
    rw [Precedes, position_binary, leftOperand?_binary]
    exact (hleft x hx).symm.imp_right fun heq => ⟨rfl, heq⟩
  · rintro _ ⟨⟩ -
    exact leftOperand?_binary _ _ _ _

end Arranged

/-- The trees of a phrase. -/
def Phrase.trees : Phrase → List Node
  | .expression _ _ tree => [tree]
  | .statements exprs last => exprs ++ [last]
  | .arguments args => args

/-- The nodes of a phrase are in document order if its tokens advance. -/
theorem Placed.arranged {tokens : List Token} {phrase : Phrase} {n : Nat}
    (h : Placed leadPosition tokens phrase n) (hadvancing : Advancing tokens) :
    Arranged tokens phrase.trees := by
  induction h with
  | number | trueWord | falseWord | var | userVar =>
    exact .node hadvancing (List.nil_sublist _) rfl fun _ => .nil
  | negate ht he ih => exact .node hadvancing (List.Sublist.refl _) rfl ih
  | not ht he ih => exact .node hadvancing (List.Sublist.refl _) rfl ih
  | call ht hl hargs hr ih =>
    exact .node hadvancing ((List.sublist_append_left _ _).cons _) rfl ih
  | assign hd hx hq he ih =>
    exact .node hadvancing (((List.Sublist.refl _).cons _).cons _) rfl ih
  | mathAssign hd hx hq he ih =>
    exact .node hadvancing (((List.Sublist.refl _).cons _).cons _) rfl ih
  | block hl hbody hr ih => exact .node hadvancing (List.sublist_append_left _ _) rfl ih
  | @group l r ts isOpen e n hl he hr ih =>
    -- parentheses add tokens, but no node
    have hsub : ts.Sublist (l :: (ts ++ [r])) := (List.sublist_append_left ts [r]).cons l
    exact (ih (hadvancing.sublist hsub)).mono hsub
  | ifElse hi hl hcond hr hyes hs hno ihcond ihyes ihno =>
    refine .node hadvancing (List.sublist_cons_self _ _) rfl fun hparts => ?_
    exact .separate hparts ihcond fun hparts => .separate hparts ihyes ihno
  | looser htier he ih => exact ih hadvancing
  | @binary ls rs t op isOpen left right nLeft nRight hleft hop hright ihleft ihright =>
    show Arranged _ [_]
    rw [← hleft.isLed (t :: rs)]
    exact (Arranged.separate hadvancing ihleft ihright).binary
  | last he ih => exact ih hadvancing
  | @semicolon ts us s isOpen e exprs last n nRest he hs hrest ih ihrest =>
    show Arranged _ ([e] ++ (exprs ++ [last]))
    exact .separate hadvancing ih ihrest
  | noArguments => exact .nil
  | lastArgument he ih => exact ih hadvancing
  | @comma ts us s isOpen e args n nRest he hs hrest ih ihrest =>
    show Arranged _ ([e] ++ args)
    exact .separate hadvancing ih ihrest

/-! ## Whole trees -/

/-- The tree is in document order. -/
structure Node.IsInDocumentOrder (tree : Node) : Prop where
  /-- No node stands before one that is above it or to its left. -/
  ascending : tree.preorder.Pairwise fun a b => a.position.UpTo b.position
  /-- Below the root, only a left operand shares its position with the node before it. -/
  shares : tree.preorder.tail.IsChain SharesLeft
  /-- A node stands at the least position in its tree. -/
  least : ∀ node ∈ tree.preorder, ∀ x ∈ node.preorder, node.position.UpTo x.position
  /-- Children of one node stand at increasing positions. -/
  siblings : ∀ node ∈ tree.preorder,
    node.children.Pairwise fun a b => a.position.Before b.position
  /-- Below the root, nodes that are no binary operations stand at increasing positions. -/
  distinct : ((tree.preorder.tail.filter fun node => node.leftOperand?.isNone).map position).Pairwise
    Position.Before

section

variable {tabSize maxDepth : Int} {text : List Char} {tokens : List Token} {exprs : List Node}
  {last tree : Node} {p : Position}

theorem Arranged.isInDocumentOrder (h : Arranged tokens (exprs ++ [last]))
    (hroot : ∀ t ∈ tokens, p.UpTo t.position) : (Node.block p exprs last).IsInDocumentOrder := by
  have hpreorder : (Node.block p exprs last).preorder =
      .block p exprs last :: preorderAll (exprs ++ [last]) := preorder_eq _
  have hascending : (Node.block p exprs last).preorder.Pairwise fun a b =>
      a.position.UpTo b.position := by
    rw [hpreorder]
    refine List.pairwise_cons.2 ⟨fun x hx => ?_, h.ordered.imp Precedes.upTo⟩
    obtain ⟨t, ht, heq⟩ := h.within x hx
    rw [← heq]
    exact hroot t ht
  refine ⟨hascending, ?_, fun node hnode x hx => ?_, ?_, ?_⟩
  · rw [hpreorder]
    exact h.shares
  · have hbelow := hascending.sublist (preorder_sublist hnode)
    rw [preorder_eq] at hbelow hx
    obtain rfl | hx := List.mem_cons.1 hx
    · exact .inl rfl
    · exact List.rel_of_pairwise_cons hbelow hx
  · rw [hpreorder]
    exact List.forall_mem_cons.2 ⟨h.apart, h.siblings⟩
  · rw [hpreorder, List.tail_cons, List.pairwise_map]
    refine (h.ordered.filter _).imp_of_mem fun ha _ hab => ?_
    have hnone := (List.mem_filter.1 ha).2
    rw [Option.isNone_iff_eq_none] at hnone
    rw [Precedes, hnone] at hab
    simpa using hab

theorem Advancing.firstPosition_upTo (h : Advancing tokens) :
    ∀ t ∈ tokens, (firstPosition tokens).UpTo t.position := by
  cases tokens with
  | nil => simp
  | cons first rest =>
    exact List.forall_mem_cons.2 ⟨.inl rfl, fun t ht => .inr (List.rel_of_pairwise_cons h ht)⟩

theorem tokenize_advancing (htab : 0 ≤ tabSize) (h : tokenize tabSize text = .ok tokens) :
    Advancing tokens := by
  obtain ⟨segments, remainder, -, hdivides⟩ := tokenize_eq_ok_iff.1 h
  have hpairwise := List.pairwise_map.1 (hdivides.before htab).2
  exact hpairwise

end

/-- What is parsed from a text is in document order, unless tabs go back. -/
theorem parse_isInDocumentOrder {tabSize maxDepth : Int} {text : List Char} {tokens : List Token}
    {tree : Node} (htab : 0 ≤ tabSize) (htokens : tokenize tabSize text = .ok tokens)
    (hparse : parse maxDepth tokens = .ok tree) : tree.IsInDocumentOrder := by
  have hadvancing := tokenize_advancing htab htokens
  obtain ⟨n, -, exprs, last, rfl, hplaced⟩ := exists_isPlacedProgram hparse
  exact (hplaced.arranged hadvancing).isInDocumentOrder hadvancing.firstPosition_upTo

/-- In `(x)+y` the sum stands where its left operand does, behind the root. -/
theorem parse_isInDocumentOrder_sum :
    let text := ['(', 'x', ')', '+', 'y']
    let tokens : List Token := [.cut text .leftParen .absent ⟨1, 1⟩ 0 1,
      .cut text .identifier (.text "x") ⟨1, 2⟩ 1 2, .cut text .rightParen .absent ⟨1, 3⟩ 2 3,
      .cut text .plus .absent ⟨1, 4⟩ 3 4, .cut text .identifier (.text "y") ⟨1, 5⟩ 4 5]
    (0 : Int) ≤ 4 ∧ tokenize 4 text = .ok tokens ∧ ∃ tree, parse 2 tokens = .ok tree ∧
      tree.IsInDocumentOrder ∧
      tree.preorder.map position = [⟨1, 1⟩, ⟨1, 2⟩, ⟨1, 2⟩, ⟨1, 5⟩] := by
  intro text tokens
  have htokens : tokenize 4 text = .ok tokens := by decide +kernel
  have hparse : parse 2 tokens = .ok _ := rfl
  exact ⟨by decide, htokens, _, hparse, parse_isInDocumentOrder (by decide) htokens hparse, rfl⟩

end ExprFront
