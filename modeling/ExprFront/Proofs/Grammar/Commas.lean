import ExprFront.Proofs.Grammar.Ordered
import Mathlib.Algebra.Ring.Nat

/-!
# Commas

A program has as many commas as its calls have gaps between arguments, and those that stand directly
before a closing parenthesis. A call with arguments can have one of these, any other call none.
-/

namespace ExprFront

/-! ## Commas among tokens -/

/-- Is the last token a comma? -/
def endsInComma (tokens : List Token) : Bool :=
  tokens.getLast?.any (·.kind = .comma)

/-- Is the first token a closing parenthesis? -/
def beginsClosing (tokens : List Token) : Bool :=
  tokens.head?.any (·.kind = .rightParen)

/-- How many commas have a closing parenthesis as the next token. -/
def closingCommas : List Token → Nat
  | [] => 0
  | t :: rest => (t.kind = .comma && beginsClosing rest : Bool).toNat + closingCommas rest

section

variable {t r : Token} {ts us : List Token}

@[simp] theorem endsInComma_nil : endsInComma [] = false := rfl

@[simp] theorem endsInComma_concat (ts : List Token) (t : Token) :
    endsInComma (ts ++ [t]) = decide (t.kind = .comma) := by
  simp [endsInComma]

theorem endsInComma_cons (h : t.kind ≠ .comma) (ts : List Token) :
    endsInComma (t :: ts) = endsInComma ts := by
  cases ts with
  | nil => simp [endsInComma, h]
  | cons u us => simp [endsInComma]

theorem endsInComma_append (ts : List Token) (h : us ≠ []) :
    endsInComma (ts ++ us) = endsInComma us := by
  unfold endsInComma
  rw [List.getLast?_append_of_ne_nil ts h]

@[simp] theorem beginsClosing_nil : beginsClosing [] = false := rfl

@[simp] theorem beginsClosing_cons (t : Token) (ts : List Token) :
    beginsClosing (t :: ts) = decide (t.kind = .rightParen) := rfl

theorem beginsClosing_append (h : beginsClosing ts = false) (us : List Token) :
    beginsClosing (ts ++ us) = (ts.isEmpty && beginsClosing us) := by
  cases ts with
  | nil => rfl
  | cons t ts => exact h

@[simp] theorem closingCommas_nil : closingCommas [] = 0 := rfl

theorem closingCommas_cons (h : t.kind ≠ .comma) (ts : List Token) :
    closingCommas (t :: ts) = closingCommas ts := by
  simp [closingCommas, h]

/-- A comma at the end of a part is a closing one if a closing parenthesis comes next. -/
theorem closingCommas_append (ts us : List Token) :
    closingCommas (ts ++ us) =
      closingCommas ts + closingCommas us + (endsInComma ts && beginsClosing us).toNat := by
  induction ts with
  | nil => simp
  | cons t ts ih =>
    cases ts with
    | nil => simp [closingCommas, endsInComma, Nat.add_comm]
    | cons u ts =>
      have hends : endsInComma ([t] ++ u :: ts) = endsInComma (u :: ts) :=
        endsInComma_append [t] (List.cons_ne_nil u ts)
      have hnext : beginsClosing (u :: ts ++ us) = beginsClosing (u :: ts) := rfl
      rw [List.singleton_append] at hends
      rw [List.cons_append, closingCommas, ih, hnext, hends, closingCommas.eq_2 t (u :: ts)]
      omega

theorem closingCommas_concat (ts : List Token) (hr : r.kind = .rightParen) :
    closingCommas (ts ++ [r]) = closingCommas ts + (endsInComma ts).toNat := by
  rw [closingCommas_append]
  simp [closingCommas, hr]

end

/-! ## Gaps among arguments -/

namespace Node

/-- How many pairs of neighbouring arguments a node has. -/
def gaps : Node → Nat
  | .call _ _ args => args.length - 1
  | _ => 0

/-- Is the node a call with arguments? -/
def hasArguments : Node → Bool
  | .call _ _ args => !args.isEmpty
  | _ => false

@[simp] theorem gaps_binary (p : Position) (op : BinaryOp) (left right : Node) :
    (binary p op left right).gaps = 0 := by
  cases op <;> rfl

@[simp] theorem hasArguments_binary (p : Position) (op : BinaryOp) (left right : Node) :
    (binary p op left right).hasArguments = false := by
  cases op <;> rfl

/-- How many pairs of neighbouring arguments there are in trees. -/
def gapsIn (trees : List Node) : Nat :=
  ((preorderAll trees).map gaps).sum

/-- How many calls with arguments there are in trees. -/
def callsIn (trees : List Node) : Nat :=
  (preorderAll trees).countP hasArguments

@[simp] theorem gapsIn_nil : gapsIn [] = 0 := rfl

@[simp] theorem callsIn_nil : callsIn [] = 0 := rfl

theorem gapsIn_append (trees trees' : List Node) :
    gapsIn (trees ++ trees') = gapsIn trees + gapsIn trees' := by
  simp [gapsIn, preorderAll_append]

theorem callsIn_append (trees trees' : List Node) :
    callsIn (trees ++ trees') = callsIn trees + callsIn trees' := by
  simp [callsIn, preorderAll_append]

theorem gapsIn_singleton (node : Node) : gapsIn [node] = node.gaps + gapsIn node.children := by
  simp [gapsIn, preorderAll, preorder_eq node]

theorem callsIn_singleton (node : Node) :
    callsIn [node] = node.hasArguments.toNat + callsIn node.children := by
  simp [callsIn, preorderAll, preorder_eq node, List.countP_cons]
  cases node.hasArguments <;> simp [Nat.add_comm]

end Node

open Node

/-! ## The commas of phrases -/

/-- The tokens have a comma for each gap in the trees, and the closing ones, of which there are no more
than calls with arguments. -/
structure Tallied (tokens : List Token) (trees : List Node) : Prop where
  begins : beginsClosing tokens = false
  ends : endsInComma tokens = false
  count : tokens.countP (·.kind = .comma) = gapsIn trees + closingCommas tokens
  closing : closingCommas tokens ≤ callsIn trees

/-- The tokens have a comma for each gap in and between the arguments, and the closing ones. A comma at
the end of the tokens is going to be one of these. -/
structure TalliedArguments (tokens : List Token) (args : List Node) : Prop where
  begins : beginsClosing tokens = false
  count : tokens.countP (·.kind = .comma) =
    gapsIn args + (args.length - 1) + closingCommas tokens + (endsInComma tokens).toNat
  closing : closingCommas tokens + (endsInComma tokens).toNat ≤
    callsIn args + (!args.isEmpty).toNat

/-- The token is neither a comma nor a closing parenthesis. -/
def Token.IsPlain (t : Token) : Prop :=
  t.kind ≠ .comma ∧ t.kind ≠ .rightParen

theorem Token.IsPlain.of_kind {t : Token} {kind : TokenKind} (h : t.kind = kind)
    (hkind : kind ≠ .comma ∧ kind ≠ .rightParen := by decide) : t.IsPlain := by
  subst h
  exact hkind

section

variable {t l r s : Token} {ts us : List Token} {trees trees' args : List Node} {tree e : Node}

namespace Tallied

theorem nil : Tallied [] [] :=
  ⟨rfl, rfl, rfl, Nat.le_refl 0⟩

theorem cons (ht : t.IsPlain) (h : Tallied ts trees) : Tallied (t :: ts) trees where
  begins := by simp [ht.2]
  ends := by rw [endsInComma_cons ht.1, h.ends]
  count := by simp [ht.1, closingCommas_cons ht.1, h.count]
  closing := by rw [closingCommas_cons ht.1]; exact h.closing

theorem append (h : Tallied ts trees) (h' : Tallied us trees') :
    Tallied (ts ++ us) (trees ++ trees') where
  begins := by simp [beginsClosing_append h.begins, h'.begins]
  ends := by
    by_cases hus : us = []
    · rw [hus, List.append_nil, h.ends]
    · rw [endsInComma_append ts hus, h'.ends]
  count := by
    rw [List.countP_append, gapsIn_append, closingCommas_append, h.count, h'.count, h'.begins,
      Bool.and_false, Bool.toNat_false]
    omega
  closing := by
    rw [callsIn_append, closingCommas_append, h'.begins, Bool.and_false, Bool.toNat_false,
      Nat.add_zero]
    exact Nat.add_le_add h.closing h'.closing

/-- No comma stands before the closing parenthesis. -/
theorem enclose (hl : l.IsPlain) (h : Tallied ts trees) (hr : r.kind = .rightParen) :
    Tallied (l :: (ts ++ [r])) trees where
  begins := by simp [hl.2]
  ends := by simp [endsInComma_cons hl.1, hr]
  count := by
    rw [closingCommas_cons hl.1, closingCommas_concat ts hr, h.ends, Bool.toNat_false]
    simp [hl.1, hr, h.count]
  closing := by
    rw [closingCommas_cons hl.1, closingCommas_concat ts hr, h.ends, Bool.toNat_false]
    exact h.closing

/-- A node that is no call adds no gaps to those below it. -/
theorem above (hgaps : tree.gaps = 0) (harguments : tree.hasArguments = false)
    (h : Tallied ts tree.children) : Tallied ts [tree] where
  begins := h.begins
  ends := h.ends
  count := by rw [gapsIn_singleton, hgaps, Nat.zero_add, h.count]
  closing := by
    rw [callsIn_singleton, harguments, Bool.toNat_false, Nat.zero_add]
    exact h.closing

/-- A comma behind the last argument of a call is a closing one. -/
theorem call {p : Position} {name : Payload} (ht : t.IsPlain) (hl : l.IsPlain)
    (h : TalliedArguments ts args) (hr : r.kind = .rightParen) :
    Tallied (t :: l :: (ts ++ [r])) [.call p name args] where
  begins := by simp [ht.2]
  ends := by
    rw [endsInComma_cons ht.1, endsInComma_cons hl.1]
    simp [hr]
  count := by
    rw [closingCommas_cons ht.1, closingCommas_cons hl.1, closingCommas_concat ts hr,
      gapsIn_singleton]
    simp [ht.1, hl.1, hr, h.count, gaps, children]
    omega
  closing := by
    rw [closingCommas_cons ht.1, closingCommas_cons hl.1, closingCommas_concat ts hr,
      callsIn_singleton]
    exact Nat.le_trans h.closing (Nat.le_of_eq (Nat.add_comm _ _))

end Tallied

namespace TalliedArguments

theorem nil : TalliedArguments [] [] :=
  ⟨rfl, rfl, Nat.le_refl 0⟩

theorem singleton (h : Tallied ts [e]) : TalliedArguments ts [e] where
  begins := h.begins
  count := by rw [h.count, h.ends]; rfl
  closing := by
    rw [h.ends]
    exact Nat.le_succ_of_le h.closing

/-- Behind a comma come further arguments, or none and no further token. -/
theorem cons (h : Tallied ts [e]) (hs : s.kind = .comma) (h' : TalliedArguments us args)
    (hnil : us = [] ↔ args = []) : TalliedArguments (ts ++ s :: us) (e :: args) := by
  have hbegins : beginsClosing (ts ++ s :: us) = false := by
    simp [beginsClosing_append h.begins, hs]
  have hcommas : (ts ++ s :: us).countP (·.kind = .comma) =
      ts.countP (·.kind = .comma) + (us.countP (·.kind = .comma) + 1) := by
    simp [List.countP_append, hs]
  have hclosing : closingCommas (ts ++ s :: us) = closingCommas ts + closingCommas us := by
    simp [closingCommas_append, closingCommas, h.ends, h'.begins]
  have hcount := h.count
  have hcount' := h'.count
  have hcalls := h.closing
  have hcalls' := h'.closing
  have hgaps : gapsIn (e :: args) = gapsIn [e] + gapsIn args := gapsIn_append [e] args
  have hcallsIn : callsIn (e :: args) = callsIn [e] + callsIn args := callsIn_append [e] args
  cases args with
  | nil =>
    -- the comma is the last token
    obtain rfl := hnil.2 rfl
    refine ⟨hbegins, ?_, ?_⟩
    · rw [endsInComma_concat, hcommas, hclosing, hcount, hgaps, hs]
      rfl
    · rw [endsInComma_concat, hclosing, hcallsIn, hs]
      exact Nat.succ_le_succ hcalls
  | cons e' args =>
    have hus : us ≠ [] := fun hus => List.cons_ne_nil e' args (hnil.1 hus)
    have hends : endsInComma (ts ++ s :: us) = endsInComma us := by
      rw [List.append_cons, endsInComma_append _ hus]
    simp only [List.length_cons, List.isEmpty_cons, Bool.not_false, Bool.toNat_true] at hcount' hcalls' ⊢
    refine ⟨hbegins, ?_, ?_⟩
    · rw [hends, hcommas, hclosing, hcount, hcount', hgaps]
      simp only [List.length_cons]
      omega
    · rw [hends, hclosing, hcallsIn]
      simp only [List.isEmpty_cons, Bool.not_false, Bool.toNat_true]
      omega

end TalliedArguments

end

/-- The commas of the phrase are tallied. -/
def Phrase.IsTallied (tokens : List Token) : Phrase → Prop
  | .expression _ _ tree => Tallied tokens [tree]
  | .statements exprs last => Tallied tokens (exprs ++ [last])
  | .arguments args => TalliedArguments tokens args

theorem TokenKind.isPlain_of_binaryOp? {kind : TokenKind} {op : BinaryOp}
    (h : kind.binaryOp? = some op) : kind ≠ .comma ∧ kind ≠ .rightParen := by
  constructor <;> rintro rfl <;> cases h

theorem TokenKind.isPlain_of_assignOp? {kind : TokenKind} {op : MathOp}
    (h : kind.assignOp? = some op) : kind ≠ .comma ∧ kind ≠ .rightParen := by
  constructor <;> rintro rfl <;> cases h

/-- There are no tokens where there are no arguments, and only there. -/
theorem Derives.arguments_eq_nil_iff {tokens : List Token} {args : List Node}
    (h : Derives tokens (.arguments args)) : tokens = [] ↔ args = [] := by
  cases h with
  | noArguments => simp
  | lastArgument he =>
    obtain ⟨t, rest, rfl, -⟩ := he.beginsWell
    simp
  | comma he hs hrest => simp

theorem Derives.isTallied {tokens : List Token} {phrase : Phrase} (h : Derives tokens phrase) :
    phrase.IsTallied tokens := by
  induction h with
  | number p ht => exact .above rfl rfl (.cons (.of_kind ht) .nil)
  | trueWord p ht => exact .above rfl rfl (.cons (.of_kind ht) .nil)
  | falseWord p ht => exact .above rfl rfl (.cons (.of_kind ht) .nil)
  | negate p ht he ih => exact .above rfl rfl (.cons (.of_kind ht) ih)
  | not p ht he ih => exact .above rfl rfl (.cons (.of_kind ht) ih)
  | var p ht => exact .above rfl rfl (.cons (.of_kind ht) .nil)
  | call p ht hl hargs hr ih => exact .call (.of_kind ht) (.of_kind hl) ih hr
  | userVar p hd hx => exact .above rfl rfl (.cons (.of_kind hd) (.cons (.of_kind hx) .nil))
  | assign p hd hx hq he ih =>
    exact .above rfl rfl (.cons (.of_kind hd) (.cons (.of_kind hx) (.cons (.of_kind hq) ih)))
  | mathAssign p hd hx hq he ih =>
    exact .above rfl rfl (.cons (.of_kind hd) (.cons (.of_kind hx)
      (.cons (TokenKind.isPlain_of_assignOp? hq) ih)))
  | block p hl hbody hr ih =>
    have hclosed := Tallied.append ih (.cons (.of_kind hr) .nil)
    rw [List.append_nil] at hclosed
    exact .above rfl rfl (.cons (.of_kind hl) hclosed)
  | group hl he hr ih => exact .enclose (.of_kind hl) ih hr
  | @ifElse i l r s cs ys ns _ _ _ cond yes no p hi hl hcond hr hyes hs hno ihcond ihyes ihno =>
    have hbranches : Tallied (ys ++ s :: ns) ([yes] ++ [no]) := .append ihyes (.cons (.of_kind hs) ihno)
    have hall := Tallied.append (.enclose (.of_kind hl) ihcond hr) hbranches
    have htokens : l :: (cs ++ [r]) ++ (ys ++ s :: ns) = l :: (cs ++ r :: (ys ++ s :: ns)) := by simp
    rw [htokens] at hall
    exact .above rfl rfl (.cons (.of_kind hi) hall)
  | looser htier he ih => exact ih
  | @binary ls rs t op isOpen left right p hleft hop hright ihleft ihright =>
    have hoperands : Tallied (ls ++ t :: rs) ([left] ++ [right]) :=
      .append ihleft (.cons (TokenKind.isPlain_of_binaryOp? hop) ihright)
    refine .above (gaps_binary p op left right) (hasArguments_binary p op left right) ?_
    rwa [children_binary]
  | last he ih => exact ih
  | @semicolon ts us s isOpen e exprs last he hs hrest ih ihrest =>
    show Tallied _ ([e] ++ (exprs ++ [last]))
    exact .append ih (.cons (.of_kind hs) ihrest)
  | noArguments => exact .nil
  | lastArgument he ih => exact .singleton ih
  | comma he hs hrest ih ihrest => exact .cons ih hs ihrest hrest.arguments_eq_nil_iff

/-! ## The commas of a program -/

/-- In a program that is parsed there is a comma between any two neighbouring arguments of a call, and
otherwise there are commas only where a closing parenthesis is next. There are no more of these than
calls with arguments. -/
theorem parse_commas {maxDepth : Int} {tokens : List Token} {tree : Node}
    (h : parse maxDepth tokens = .ok tree) :
    tokens.countP (·.kind = .comma) =
        (tree.preorder.map Node.gaps).sum + closingCommas tokens ∧
      closingCommas tokens ≤ tree.preorder.countP Node.hasArguments := by
  obtain ⟨p, exprs, last, rfl, hderives⟩ := isProgram_of_parse h
  have htallied : Tallied tokens [.block p exprs last] := .above rfl rfl hderives.isTallied
  have hcount := htallied.count
  have hclosing := htallied.closing
  simp only [gapsIn, callsIn, preorderAll, List.append_nil] at hcount hclosing
  exact ⟨hcount, hclosing⟩

/-- In `f(x, y,)` one comma is between the arguments and one is behind the last of them. -/
theorem parse_commas_call :
    let tokens : List Token := [.bare .identifier (.text "f"), .bare .leftParen,
      .bare .identifier (.text "x"), .bare .comma, .bare .identifier (.text "y"), .bare .comma,
      .bare .rightParen]
    ∃ tree, parse 2 tokens = .ok tree ∧ (tree.preorder.map Node.gaps).sum = 1 ∧
      tokens.countP (·.kind = .comma) = 1 + closingCommas tokens ∧ closingCommas tokens ≤ 1 := by
  intro tokens
  have hparse : parse 2 tokens = .ok (.block .first [] (.call .first (.text "f")
    [.var .first (.text "x"), .var .first (.text "y")])) := rfl
  exact ⟨_, hparse, rfl, parse_commas hparse⟩

/-- The call `f(x,)` has one argument and no gap, and it is parsed with its comma. -/
theorem parse_closing_comma :
    let tokens : List Token := [.bare .identifier (.text "f"), .bare .leftParen,
      .bare .identifier (.text "x"), .bare .comma, .bare .rightParen]
    ∃ tree, parse 2 tokens = .ok tree ∧
      tokens.countP (·.kind = .comma) ≠ (tree.preorder.map Node.gaps).sum := by
  intro tokens
  let tree : Node := .block .first [] (.call .first (.text "f") [.var .first (.text "x")])
  have hgaps : (tree.preorder.map Node.gaps).sum = 0 := rfl
  have hcommas : tokens.countP (·.kind = .comma) = 1 := rfl
  refine ⟨tree, rfl, ?_⟩
  rw [hgaps, hcommas]
  exact Nat.one_ne_zero

end ExprFront
