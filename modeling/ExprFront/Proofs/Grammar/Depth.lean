import ExprFront.Proofs.Grammar.Placing
import ExprFront.Proofs.Parse.Passing

/-!
# How much room a phrase takes

A phrase is read with exactly the room that its derivation is deep: with less, the nesting is found
too deep among its own tokens. Each rule is a sequence of moves, and the room for a sequence is that
of its largest part. A chain of one tier groups to the left, while its step reads from the left: so
the claim for a tier is that the tokens lead from the beginning of the chain into its loop.
-/

namespace ExprFront

open Parse

/-- The step of a tier reads the tokens as the tree with room for `n` levels and no less, where the
token behind stops it. -/
def ReadsWithin (n : Nat) (ts : List Token) (tier : Nat) (isOpen : Bool) (tree : Node) : Prop :=
  ∀ next, Stops tier isOpen next → Follows next →
    Passes n (fun room => tiered (primary room) tier) (fun _ => pure tree) ts next

/-- The tokens lead into the loop of the tier with room for `n` levels and no less. An operator of
the tier may come next. -/
def LeadsWithin (n : Nat) (ts : List Token) (tier : Nat) (isOpen : Bool) (tree : Node) : Prop :=
  ∀ next, Stops (tier + 1) isOpen next → Follows next →
    Passes n (fun room => tiered (primary room) tier)
      (fun room => chainFrom tier (tiered (primary room) (tier + 1)) tree) ts next

/-- The tokens are read as statements wherever none can follow. -/
def ReadsStatementsWithin (n : Nat) (ts : List Token) (exprs : List Node) (last : Node) : Prop :=
  ∀ next, Stops 1 true next → Follows next → (∀ t, next = some t → t.kind ≠ .semicolon) →
    Passes n (fun room => statements (primary room)) (fun _ => pure (exprs, last)) ts next

/-- The tokens are read as arguments up to and with the closing parenthesis. -/
def ReadsArgumentsWithin (n : Nat) (ts : List Token) (args : List Node) : Prop :=
  ∀ r next, r.kind = .rightParen →
    Passes n (fun room => arguments (primary room)) (fun _ => pure args) (ts ++ [r]) next

/-! ## Steps that read nothing more -/

section

variable {t : Token} {next : Option Token}

theorem Accepts.accept {kind : TokenKind} (h : t.kind = kind) :
    Accepts (fun _ => accept [kind]) [t] next (some t) :=
  Accepts.acceptAs_some (by simp [h])

theorem Accepts.accept_none {kind : TokenKind} (h : ∀ t, next = some t → t.kind ≠ kind) :
    Accepts (fun _ => Parse.accept [kind]) [] next none :=
  Accepts.acceptAs_none fun t ht => by simp [h t ht]

/-- The token behind an expression is none of those that could have continued its last operand. -/
theorem Follows.accept_none (h : Follows next) {kind : TokenKind}
    (hkind : kind ∉ TokenKind.followers) : Accepts (fun _ => accept [kind]) [] next none :=
  Accepts.accept_none fun t ht heq => hkind (heq ▸ h t ht)

theorem Follows.assignOp_none (h : Follows next) :
    Accepts (fun _ => acceptAs fun t => t.kind.assignOp?) [] next none :=
  Accepts.acceptAs_none fun t ht => TokenKind.assignOp?_of_mem_followers (h t ht)

end

/-! ## Chains -/

section

variable {n nLeft nRight tier : Nat} {isOpen : Bool} {tree : Node} {next : Option Token}
  {ts : List Token}

theorem chainFrom_tiered_eq (tier : Nat) (tree : Node) :
    (fun room => chainFrom tier (tiered (primary room) (tier + 1)) tree) = fun room => (do
      match ← operator tier with
      | none => pure tree
      | some op =>
        let right ← tiered (primary room) (tier + 1)
        chainFrom tier (tiered (primary room) (tier + 1))
          (.binary tree.position op tree right)) :=
  funext fun room => chainFrom_eq ((Advances.primary room).tiered (tier + 1)) tree

/-- A loop ends where its tier stops. -/
theorem Stops.chainFrom_accepts (h : Stops tier isOpen next) :
    Accepts (fun room => chainFrom tier (tiered (primary room) (tier + 1)) tree) [] next tree := by
  have hnone : ∀ t, next = some t → t.kind.binaryOp?.filter (·.tier = tier) = none := by
    intro t ht
    rw [Option.filter_eq_none_iff]
    intro op hop
    have hlt := (h t op ht hop).1
    simp only [decide_eq_true_eq]
    omega
  rw [chainFrom_tiered_eq]
  show Accepts _ ([] ++ []) next tree
  exact Accepts.bind (Accepts.acceptAs_none hnone) (Accepts.pure next tree)

theorem LeadsWithin.readsWithin (h : LeadsWithin n ts tier isOpen tree) :
    ReadsWithin n ts tier isOpen tree := by
  intro next hstops hfollows
  rw [← List.append_nil ts]
  have hleads := h next (hstops.mono (Nat.le_succ tier)) hfollows
  exact hleads.before hstops.chainFrom_accepts.passes_nil

/-- An operand of a tier begins a chain of the tier. -/
theorem ReadsWithin.leadsWithin (h : ReadsWithin n ts (tier + 1) isOpen tree) (htier : 1 ≤ tier)
    (htier' : tier ≤ 4) : LeadsWithin n ts tier isOpen tree := by
  intro next hstops hfollows
  rw [show (fun room => tiered (primary room) tier) = _ from
    funext fun room => tiered_eq htier htier']
  exact (h next hstops hfollows).bind

/-- An operator of the tier and one more operand continue a chain. -/
theorem LeadsWithin.binary {ls rs : List Token} {t : Token} {op : BinaryOp} {left right : Node}
    (hleft : LeadsWithin nLeft ls op.tier false left) (hop : t.kind.binaryOp? = some op)
    (hright : ReadsWithin nRight rs (op.tier + 1) isOpen right) :
    LeadsWithin (max nLeft nRight) (ls ++ t :: rs) op.tier isOpen
      (.binary left.position op left right) := by
  intro next hstops hfollows
  have hmeaning : t.kind.binaryOp?.filter (·.tier = op.tier) = some op := by
    simp [hop, Option.filter]
  show Passes _ _ _ (ls ++ ([t] ++ rs)) next
  refine (hleft (some t) (Stops.of_operator hop)
    (Follows.of_kind (TokenKind.mem_followers_of_binaryOp? hop))).trans ?_
  rw [chainFrom_tiered_eq]
  exact (Accepts.acceptAs_some hmeaning).passes.bind.behind (hright next hstops hfollows).bind

end

/-! ## Rows of expressions -/

/-- The kinds of tokens that end an expression of any tier. -/
def TokenKind.closers : List TokenKind :=
  [.semicolon, .comma, .rightParen, .rightBrace, .elseWord]

theorem TokenKind.closers_spec {kind : TokenKind} (h : kind ∈ closers) :
    kind.binaryOp? = none ∧ kind ∈ followers := by
  cases kind <;> revert h <;> decide

section

variable {n nRest : Nat} {t r : Token} {ts us : List Token} {next : Option Token} {isOpen : Bool}
  {e : Node}

theorem ReadsWithin.loosest (h : ReadsWithin n ts 1 isOpen e) (hstops : Stops 1 isOpen next)
    (hfollows : Follows next) :
    Passes n (fun room => expression (primary room)) (fun _ => pure e) ts next :=
  h next hstops hfollows

/-- An expression is read up to a token that ends it. -/
theorem ReadsWithin.before (h : ReadsWithin n ts 1 isOpen e) (ht : t.kind ∈ TokenKind.closers) :
    Passes n (fun room => expression (primary room)) (fun _ => pure e) ts (some t) :=
  have hspec := TokenKind.closers_spec ht
  h _ (Stops.of_kind hspec.1 1 isOpen) (Follows.of_kind hspec.2)

theorem statements_primary_eq :
    (fun room => statements (primary room)) = fun room => (do
      let e ← expression (primary room)
      match ← accept [.semicolon] with
      | none => pure ([], e)
      | some _ =>
        let (es, last) ← statements (primary room)
        pure (e :: es, last)) :=
  funext fun room => statements_eq (Advances.primary room)

theorem ReadsWithin.last (h : ReadsWithin n ts 1 isOpen e) : ReadsStatementsWithin n ts [] e := by
  intro next hstops hfollows hsemicolon
  rw [statements_primary_eq, ← List.append_nil ts]
  exact (h.loosest (hstops.of_one 1 isOpen) hfollows).bind.before
    (Accepts.accept_none hsemicolon).passes.bind

/-- An expression and a semicolon lead to the statements behind them. -/
theorem ReadsWithin.semicolon (h : ReadsWithin n ts 1 isOpen e) (ht : t.kind = .semicolon)
    (next : Option Token) :
    Passes n (fun room => statements (primary room))
      (fun room => do
        let (es, last) ← statements (primary room)
        pure (e :: es, last)) (ts ++ [t]) next := by
  rw [statements_primary_eq]
  exact (h.before (by rw [ht]; decide)).bind.before (Accepts.accept ht).passes.bind

theorem ReadsStatementsWithin.cons {exprs : List Node} {last : Node}
    (hfirst : ReadsWithin n ts 1 isOpen e) (ht : t.kind = .semicolon)
    (h : ReadsStatementsWithin nRest us exprs last) :
    ReadsStatementsWithin (max n nRest) (ts ++ t :: us) (e :: exprs) last := by
  intro next hstops hfollows hsemicolon
  rw [show ts ++ t :: us = (ts ++ [t]) ++ us by simp]
  exact (hfirst.semicolon ht _).trans (h next hstops hfollows hsemicolon).bind

theorem arguments_primary_eq :
    (fun room => arguments (primary room)) = fun room => (do
      match ← accept [.rightParen] with
      | some _ => pure []
      | none =>
        let e ← expression (primary room)
        match ← accept [.rightParen] with
        | some _ => pure [e]
        | none =>
          let _ ← expect .comma
          let es ← arguments (primary room)
          pure (e :: es)) :=
  funext fun room => arguments_eq (Advances.primary room)

theorem ReadsArgumentsWithin.nil : ReadsArgumentsWithin 0 [] [] := by
  intro r next hr
  rw [arguments_primary_eq]
  exact (Accepts.accept hr).passes.bind

/-- No arguments end where an expression begins. -/
theorem Phrase.BeginsWell.accept_none {tier : Nat}
    (h : (Phrase.expression tier isOpen e).BeginsWell ts) (rest : Option Token) :
    Accepts (fun _ => accept [.rightParen]) [] (ts.head?.or rest) none := by
  obtain ⟨t, us, rfl, ht⟩ := h
  -- a closing parenthesis begins no primary expression
  apply Accepts.accept_none
  rintro _ ⟨⟩ heq
  rw [heq] at ht
  exact absurd ht (by decide)

theorem ReadsWithin.lastArgument (hbegin : (Phrase.expression 1 isOpen e).BeginsWell ts)
    (h : ReadsWithin n ts 1 isOpen e) : ReadsArgumentsWithin n ts [e] := by
  intro r next hr
  rw [arguments_primary_eq]
  show Passes n _ _ ([] ++ (ts ++ [r])) next
  refine (Accepts.passes (a := none) ?_).bind.behind ?_
  · rw [List.head?_append, Option.or_assoc]
    exact hbegin.accept_none _
  · exact (h.before (by rw [hr]; decide)).bind.before (Accepts.accept hr).passes.bind

theorem ReadsArgumentsWithin.cons {args : List Node}
    (hbegin : (Phrase.expression 1 isOpen e).BeginsWell ts) (hfirst : ReadsWithin n ts 1 isOpen e)
    (ht : t.kind = .comma) (h : ReadsArgumentsWithin nRest us args) :
    ReadsArgumentsWithin (max n nRest) (ts ++ t :: us) (e :: args) := by
  intro r next hr
  rw [arguments_primary_eq, show ts ++ t :: us ++ [r] = [] ++ (ts ++ ([] ++ ([t] ++ (us ++ [r]))))
    by simp]
  refine (Accepts.passes (a := none) ?_).bind.behind ?_
  · rw [List.head?_append, Option.or_assoc]
    exact hbegin.accept_none _
  · refine (hfirst.before (by rw [ht]; decide)).bind.trans ?_
    refine (Accepts.passes (Accepts.accept_none ?_)).bind.behind ?_
    · rintro _ ⟨⟩
      rw [ht]
      decide
    · exact (Accepts.expect ht).passes.bind.behind (h r next hr).bind

end

/-! ## The forms of primary expressions -/

section

variable {n nCond nYes nNo : Nat} {t d x q l r s : Token} {ts cs ys ns : List Token}
  {isOpen openCond openYes openNo : Bool} {e cond yes no : Node}

/-- A primary expression is read with one level more than what is behind its first token. -/
theorem ReadsWithin.of_primaryAfter {tree : Node}
    (h : ∀ next, Stops 5 isOpen next → Follows next →
      Passes n (fun room => primaryAfter (primary room) t) (fun _ => pure tree) ts next) :
    ReadsWithin (n + 1) (t :: ts) 5 isOpen tree :=
  fun next hstops hfollows => Passes.primary (h next hstops hfollows)

theorem ReadsWithin.number (ht : t.kind = .number) :
    ReadsWithin 1 [t] 5 false (.number t.position t.payload) := by
  refine ReadsWithin.of_primaryAfter fun next _ _ => ?_
  simp only [primaryAfter, ht]
  exact (Accepts.pure next _).passes

theorem ReadsWithin.trueWord (ht : t.kind = .trueWord) :
    ReadsWithin 1 [t] 5 false (.bool t.position true) := by
  refine ReadsWithin.of_primaryAfter fun next _ _ => ?_
  simp only [primaryAfter, ht]
  exact (Accepts.pure next _).passes

theorem ReadsWithin.falseWord (ht : t.kind = .falseWord) :
    ReadsWithin 1 [t] 5 false (.bool t.position false) := by
  refine ReadsWithin.of_primaryAfter fun next _ _ => ?_
  simp only [primaryAfter, ht]
  exact (Accepts.pure next _).passes

theorem ReadsWithin.negate (ht : t.kind = .minus) (h : ReadsWithin n ts 5 isOpen e) :
    ReadsWithin (n + 1) (t :: ts) 5 isOpen (.negate t.position e) := by
  refine ReadsWithin.of_primaryAfter fun next hstops hfollows => ?_
  simp only [primaryAfter, ht]
  exact (h next hstops hfollows).bind

theorem ReadsWithin.not (ht : t.kind = .bang) (h : ReadsWithin n ts 5 isOpen e) :
    ReadsWithin (n + 1) (t :: ts) 5 isOpen (.not t.position e) := by
  refine ReadsWithin.of_primaryAfter fun next hstops hfollows => ?_
  simp only [primaryAfter, ht]
  exact (h next hstops hfollows).bind

theorem ReadsWithin.var (ht : t.kind = .identifier) :
    ReadsWithin 1 [t] 5 false (.var t.position t.payload) := by
  refine ReadsWithin.of_primaryAfter fun next _ hfollows => ?_
  simp only [primaryAfter, ht]
  exact (hfollows.accept_none (by decide)).passes.bind

theorem ReadsWithin.call {args : List Node} (ht : t.kind = .identifier) (hl : l.kind = .leftParen)
    (h : ReadsArgumentsWithin n ts args) (hr : r.kind = .rightParen) :
    ReadsWithin (n + 1) (t :: l :: (ts ++ [r])) 5 false (.call t.position t.payload args) := by
  refine ReadsWithin.of_primaryAfter fun next _ _ => ?_
  simp only [primaryAfter, ht]
  rw [show l :: (ts ++ [r]) = [l] ++ (ts ++ [r]) from rfl]
  exact (Accepts.accept hl).passes.bind.behind (h r next hr).bind

theorem ReadsWithin.userVar (hd : d.kind = .dollar) (hx : x.kind = .identifier) :
    ReadsWithin 1 [d, x] 5 false (.userVar d.position x.payload) := by
  refine ReadsWithin.of_primaryAfter fun next _ hfollows => ?_
  simp only [primaryAfter, hd, Parse.userVar]
  show Passes 0 _ _ ([x] ++ ([] ++ [])) next
  refine (Accepts.expect hx).passes.bind.behind ?_
  -- no assignment follows, as its sign may not stand behind an expression
  refine (hfollows.accept_none (by decide)).passes.bind.behind ?_
  exact hfollows.assignOp_none.passes.bind

theorem ReadsWithin.assign (hd : d.kind = .dollar) (hx : x.kind = .identifier)
    (hq : q.kind = .equal) (h : ReadsWithin n ts 1 isOpen e) :
    ReadsWithin (n + 1) (d :: x :: q :: ts) 5 true (.assign d.position x.payload e) := by
  refine ReadsWithin.of_primaryAfter fun next hstops hfollows => ?_
  simp only [primaryAfter, hd, Parse.userVar]
  rw [show x :: q :: ts = [x] ++ ([q] ++ ts) from rfl]
  refine (Accepts.expect hx).passes.bind.behind ?_
  refine (Accepts.accept hq).passes.bind.behind ?_
  exact (h.loosest (hstops.of_open 1 isOpen) hfollows).bind

theorem ReadsWithin.mathAssign {op : MathOp} (hd : d.kind = .dollar) (hx : x.kind = .identifier)
    (hq : q.kind.assignOp? = some op) (h : ReadsWithin n ts 1 isOpen e) :
    ReadsWithin (n + 1) (d :: x :: q :: ts) 5 true (.mathAssign d.position op x.payload e) := by
  have hequal : q.kind ≠ .equal := by
    intro heq
    rw [heq] at hq
    cases hq
  refine ReadsWithin.of_primaryAfter fun next hstops hfollows => ?_
  simp only [primaryAfter, hd, Parse.userVar]
  rw [show x :: q :: ts = [x] ++ ([] ++ ([q] ++ ts)) from rfl]
  refine (Accepts.expect hx).passes.bind.behind ?_
  refine (Accepts.passes (Accepts.accept_none (by rintro _ ⟨⟩; exact hequal))).bind.behind ?_
  refine (Accepts.acceptAs_some hq).passes.bind.behind ?_
  exact (h.loosest (hstops.of_open 1 isOpen) hfollows).bind

theorem ReadsWithin.block {exprs : List Node} {last : Node} (hl : l.kind = .leftBrace)
    (h : ReadsStatementsWithin n ts exprs last) (hr : r.kind = .rightBrace) :
    ReadsWithin (n + 1) (l :: (ts ++ [r])) 5 false (.block l.position exprs last) := by
  refine ReadsWithin.of_primaryAfter fun next _ _ => ?_
  simp only [primaryAfter, hl]
  have hnext := h (some r) (Stops.of_kind (by rw [hr]; rfl) 1 true)
    (Follows.of_kind (by rw [hr]; decide)) (by rintro _ ⟨⟩; rw [hr]; decide)
  exact hnext.bind.before (Accepts.expect hr).passes.bind

theorem ReadsWithin.group (hl : l.kind = .leftParen) (h : ReadsWithin n ts 1 isOpen e)
    (hr : r.kind = .rightParen) : ReadsWithin (n + 1) (l :: (ts ++ [r])) 5 false e := by
  refine ReadsWithin.of_primaryAfter fun next _ _ => ?_
  simp only [primaryAfter, hl]
  exact (h.before (by rw [hr]; decide)).bind.before (Accepts.expect hr).passes.bind

theorem ReadsWithin.ifElse (ht : t.kind = .ifWord) (hl : l.kind = .leftParen)
    (hcond : ReadsWithin nCond cs 1 openCond cond) (hr : r.kind = .rightParen)
    (hyes : ReadsWithin nYes ys 1 openYes yes) (hs : s.kind = .elseWord)
    (hno : ReadsWithin nNo ns 1 openNo no) :
    ReadsWithin (max nCond (max nYes nNo) + 1) (t :: l :: (cs ++ r :: (ys ++ s :: ns))) 5 true
      (.ifElse t.position cond yes no) := by
  refine ReadsWithin.of_primaryAfter fun next hstops hfollows => ?_
  simp only [primaryAfter, ht, Parse.ifElse]
  rw [show l :: (cs ++ r :: (ys ++ s :: ns)) = [l] ++ (cs ++ ([r] ++ (ys ++ ([s] ++ ns)))) from rfl]
  refine (Accepts.expect hl).passes.bind.behind ?_
  refine (hcond.before (by rw [hr]; decide)).bind.trans ?_
  refine (Accepts.expect hr).passes.bind.behind ?_
  refine (hyes.before (by rw [hs]; decide)).bind.trans ?_
  refine (Accepts.expect hs).passes.bind.behind ?_
  exact (hno.loosest (hstops.of_open 1 openNo) hfollows).bind

end

/-! ## Every phrase -/

/-- The tokens are read as the phrase with room for `n` levels and no less. -/
def Phrase.IsReadAsIs (n : Nat) (tokens : List Token) : Phrase → Prop
  | .expression tier isOpen tree => tier ≤ 5 ∧ ReadsWithin n tokens tier isOpen tree ∧
      (tier ≤ 4 → LeadsWithin n tokens tier isOpen tree)
  | .statements exprs last => ReadsStatementsWithin n tokens exprs last
  | .arguments args => ReadsArgumentsWithin n tokens args

/-- The tokens are read as the phrase with room for `n` levels and no less, or as one that differs
in the positions of nodes alone. -/
def Phrase.IsReadWithin (n : Nat) (tokens : List Token) (phrase : Phrase) : Prop :=
  phrase.HoldsUpToPlaces (Phrase.IsReadAsIs n tokens)

section

variable {n tier : Nat} {tokens : List Token} {isOpen : Bool} {tree : Node}

theorem Phrase.IsReadAsIs.reads (h : (Phrase.expression tier isOpen tree).IsReadAsIs n tokens) :
    ReadsWithin n tokens tier isOpen tree :=
  h.2.1

theorem Phrase.IsReadAsIs.of_primary (h : ReadsWithin n tokens 5 isOpen tree) :
    (Phrase.expression 5 isOpen tree).IsReadAsIs n tokens :=
  ⟨Nat.le_refl 5, h, fun htier => absurd htier (by decide)⟩

end

/-- A phrase is read with its nodes in their places, and takes as much room as its derivation is
deep. -/
theorem Placed.isReadAsIs {tokens : List Token} {phrase : Phrase} {n : Nat}
    (h : Placed leadPosition tokens phrase n) : phrase.IsReadAsIs n tokens := by
  induction h with
  | number ht => exact .of_primary (ReadsWithin.number ht)
  | trueWord ht => exact .of_primary (ReadsWithin.trueWord ht)
  | falseWord ht => exact .of_primary (ReadsWithin.falseWord ht)
  | negate ht he ih => exact .of_primary (ih.reads.negate ht)
  | not ht he ih => exact .of_primary (ih.reads.not ht)
  | var ht => exact .of_primary (ReadsWithin.var ht)
  | call ht hl hargs hr ih => exact .of_primary (ReadsWithin.call ht hl ih hr)
  | userVar hd hx => exact .of_primary (ReadsWithin.userVar hd hx)
  | assign hd hx hq he ih => exact .of_primary (ih.reads.assign hd hx hq)
  | mathAssign hd hx hq he ih => exact .of_primary (ih.reads.mathAssign hd hx hq)
  | block hl hbody hr ih => exact .of_primary (ReadsWithin.block hl ih hr)
  | group hl he hr ih => exact .of_primary (ih.reads.group hl hr)
  | ifElse hi hl hcond hr hyes hs hno ihcond ihyes ihno =>
    exact .of_primary (ReadsWithin.ifElse hi hl ihcond.reads hr ihyes.reads hs ihno.reads)
  | looser htier he ih =>
    -- an operand begins a chain that may stop right behind it
    obtain ⟨htier', hread, -⟩ := ih
    have hleads := hread.leadsWithin htier (Nat.le_of_succ_le_succ htier')
    exact ⟨Nat.le_of_succ_le htier', hleads.readsWithin, fun _ => hleads⟩
  | @binary ls rs t op isOpen left right nLeft nRight hleft hop hright ihleft ihright =>
    -- the left operand has to lead into the loop, the right one is read as it is
    obtain ⟨-, -, hleads⟩ := ihleft
    obtain ⟨-, hread, -⟩ := ihright
    have hbinary := (hleads op.tier_le_four).binary hop hread
    rw [hleft.isLed (t :: rs)] at hbinary
    exact ⟨Nat.le_succ_of_le op.tier_le_four, hbinary.readsWithin, fun _ => hbinary⟩
  | last he ih => exact ih.reads.last
  | semicolon he hs hrest ih ihrest => exact ReadsStatementsWithin.cons ih.reads hs ihrest
  | noArguments => exact ReadsArgumentsWithin.nil
  | lastArgument he ih => exact ih.reads.lastArgument he.nests.derives.beginsWell
  | comma he hs hrest ih ihrest =>
    exact ReadsArgumentsWithin.cons he.nests.derives.beginsWell ih.reads hs ihrest

/-- A phrase takes as much room as its derivation is deep. -/
theorem Nests.isReadWithin {tokens : List Token} {phrase : Phrase} {n : Nat}
    (h : Nests tokens phrase n) : phrase.IsReadWithin n tokens :=
  (h.exists_placed leadPosition).imp fun _ hplaced => hplaced.isReadAsIs

end ExprFront
