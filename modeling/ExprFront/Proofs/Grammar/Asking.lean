import ExprFront.Proofs.Grammar.Depth

/-!
# Where primary expressions are asked for

Some tokens of a text are asked for as the beginning of a primary expression, each within some
primary expressions that are still open. The rules of the grammar say which: a phrase that has been
read in part either stands inside one of its own parts, or asks for a primary expression here. The
text need not be a program for that, and the token need not begin anything.
-/

namespace ExprFront

open Parse

/-- The sorts of phrases that are read. -/
inductive Wanted where
  | expression (tier : Nat)
  | statements
  | arguments

/-- Where a phrase of the sort is wanted and the tokens have been read of it, this token is asked
for as the beginning of a primary expression, while so many others of the phrase are open. -/
inductive Asks : Wanted → List Token → Token → Nat → Prop where
  | here (t : Token) : Asks (.expression 5) [] t 0
  | operand {s t : Token} {read : List Token} {m : Nat} (hs : s.kind = .minus ∨ s.kind = .bang)
      (h : Asks (.expression 5) read t m) : Asks (.expression 5) (s :: read) t (m + 1)
  | call {f l t : Token} {read : List Token} {m : Nat} (hf : f.kind = .identifier)
      (hl : l.kind = .leftParen) (h : Asks .arguments read t m) :
      Asks (.expression 5) (f :: l :: read) t (m + 1)
  | value {d x q t : Token} {read : List Token} {m : Nat} (hd : d.kind = .dollar)
      (hx : x.kind = .identifier) (hq : q.kind = .equal ∨ ∃ op, q.kind.assignOp? = some op)
      (h : Asks (.expression 1) read t m) : Asks (.expression 5) (d :: x :: q :: read) t (m + 1)
  | block {l t : Token} {read : List Token} {m : Nat} (hl : l.kind = .leftBrace)
      (h : Asks .statements read t m) : Asks (.expression 5) (l :: read) t (m + 1)
  | group {l t : Token} {read : List Token} {m : Nat} (hl : l.kind = .leftParen)
      (h : Asks (.expression 1) read t m) : Asks (.expression 5) (l :: read) t (m + 1)
  | cond {i l t : Token} {read : List Token} {m : Nat} (hi : i.kind = .ifWord)
      (hl : l.kind = .leftParen) (h : Asks (.expression 1) read t m) :
      Asks (.expression 5) (i :: l :: read) t (m + 1)
  | yes {i l r t : Token} {cs read : List Token} {openCond : Bool} {cond : Node} {m : Nat}
      (hi : i.kind = .ifWord) (hl : l.kind = .leftParen)
      (hcond : Derives cs (.expression 1 openCond cond)) (hr : r.kind = .rightParen)
      (h : Asks (.expression 1) read t m) :
      Asks (.expression 5) (i :: l :: (cs ++ r :: read)) t (m + 1)
  | no {i l r s t : Token} {cs ys read : List Token} {openCond openYes : Bool} {cond yes : Node}
      {m : Nat} (hi : i.kind = .ifWord) (hl : l.kind = .leftParen)
      (hcond : Derives cs (.expression 1 openCond cond)) (hr : r.kind = .rightParen)
      (hyes : Derives ys (.expression 1 openYes yes)) (hs : s.kind = .elseWord)
      (h : Asks (.expression 1) read t m) :
      Asks (.expression 5) (i :: l :: (cs ++ r :: (ys ++ s :: read))) t (m + 1)
  | first {t : Token} {read : List Token} {tier m : Nat} (htier : 1 ≤ tier)
      (h : Asks (.expression (tier + 1)) read t m) : Asks (.expression tier) read t m
  | right {o t : Token} {ls read : List Token} {op : BinaryOp} {left : Node} {m : Nat}
      (hleft : Derives ls (.expression op.tier false left)) (hop : o.kind.binaryOp? = some op)
      (h : Asks (.expression (op.tier + 1)) read t m) :
      Asks (.expression op.tier) (ls ++ o :: read) t m
  | statement {t : Token} {read : List Token} {m : Nat} (h : Asks (.expression 1) read t m) :
      Asks .statements read t m
  | semicolon {s t : Token} {es read : List Token} {isOpen : Bool} {e : Node} {m : Nat}
      (he : Derives es (.expression 1 isOpen e)) (hs : s.kind = .semicolon)
      (h : Asks .statements read t m) : Asks .statements (es ++ s :: read) t m
  -- a closing parenthesis where an argument could begin ends the arguments and is not asked for
  | argument {t : Token} {read : List Token} {m : Nat}
      (hclose : ∀ u, (read ++ [t]).head? = some u → u.kind ≠ .rightParen)
      (h : Asks (.expression 1) read t m) : Asks .arguments read t m
  | comma {s t : Token} {es read : List Token} {isOpen : Bool} {e : Node} {m : Nat}
      (he : Derives es (.expression 1 isOpen e)) (hs : s.kind = .comma)
      (h : Asks .arguments read t m) : Asks .arguments (es ++ s :: read) t m

/-! ## What is asked for can be given -/

/-- The tokens can be completed to a phrase of the sort, arguments with the parenthesis that closes
them. -/
def Wanted.Viable (read : List Token) : Wanted → Prop
  | .expression tier => ∃ more isOpen e, Derives (read ++ more) (.expression tier isOpen e)
  | .statements => ∃ more exprs last, Derives (read ++ more) (.statements exprs last)
  | .arguments => ∃ more ts r args, read ++ more = ts ++ [r] ∧ r.kind = .rightParen ∧
      Derives ts (.arguments args)

/-- A number is an expression of every tier. -/
theorem Derives.bare_number {tier : Nat} (hone : 1 ≤ tier) (htier : tier ≤ 5) :
    Derives [.bare .number] (.expression tier false (.number .first .absent)) :=
  (Derives.number (t := .bare .number) .first rfl).loosen hone htier

/-- Where a primary expression is asked for, whatever begins one can be completed to a phrase of the
sort. A single token that does not is asked for all the same, unless it closes arguments. -/
theorem Asks.viable_or {wanted : Wanted} {read us : List Token} {t : Token} {m : Nat}
    (h : Asks wanted read t m) (hus : (Wanted.expression 5).Viable us ∨ ∃ u, us = [u]) :
    wanted.Viable (read ++ us) ∨ ∃ u, us = [u] ∧ Asks wanted read u m := by
  have hnumber := Derives.bare_number (Nat.le_refl 1) (by decide)
  have hparen : (Token.bare .rightParen).kind = .rightParen := rfl
  have hbrace : (Token.bare .rightBrace).kind = .rightBrace := rfl
  have helse : (Token.bare .elseWord).kind = .elseWord := rfl
  -- behind the place, numbers and closing tokens complete whatever is open there
  induction h with
  | here t => exact hus.imp_right fun ⟨u, hu⟩ => ⟨u, hu, .here u⟩
  | operand hs h ih =>
    obtain ⟨more, isOpen, e, he⟩ | ⟨u, hu, hasks⟩ := ih
    · obtain hs | hs := hs
      · exact .inl ⟨more, isOpen, _, .negate .first hs he⟩
      · exact .inl ⟨more, isOpen, _, .not .first hs he⟩
    · exact .inr ⟨u, hu, .operand hs hasks⟩
  | call hf hl h ih =>
    obtain ⟨more, ts, r, args, hts, hr, hargs⟩ | ⟨u, hu, hasks⟩ := ih
    · have hcall := Derives.call .first hf hl hargs hr
      rw [← hts] at hcall
      exact .inl ⟨more, false, _, hcall⟩
    · exact .inr ⟨u, hu, .call hf hl hasks⟩
  | value hd hx hq h ih =>
    obtain ⟨more, isOpen, e, he⟩ | ⟨u, hu, hasks⟩ := ih
    · obtain hq | ⟨op, hq⟩ := hq
      · exact .inl ⟨more, true, _, .assign .first hd hx hq he⟩
      · exact .inl ⟨more, true, _, .mathAssign .first hd hx hq he⟩
    · exact .inr ⟨u, hu, .value hd hx hq hasks⟩
  | block hl h ih =>
    obtain ⟨more, exprs, last, hbody⟩ | ⟨u, hu, hasks⟩ := ih
    · exact .inl ⟨more ++ [.bare .rightBrace], false, _,
        by simpa using Derives.block .first hl hbody hbrace⟩
    · exact .inr ⟨u, hu, .block hl hasks⟩
  | group hl h ih =>
    obtain ⟨more, isOpen, e, he⟩ | ⟨u, hu, hasks⟩ := ih
    · exact .inl ⟨more ++ [.bare .rightParen], false, e, by simpa using Derives.group hl he hparen⟩
    · exact .inr ⟨u, hu, .group hl hasks⟩
  | cond hi hl h ih =>
    obtain ⟨more, isOpen, e, he⟩ | ⟨u, hu, hasks⟩ := ih
    · exact .inl ⟨more ++ [.bare .rightParen, .bare .number, .bare .elseWord, .bare .number], true,
        _, by simpa using Derives.ifElse .first hi hl he hparen hnumber helse hnumber⟩
    · exact .inr ⟨u, hu, .cond hi hl hasks⟩
  | yes hi hl hcond hr h ih =>
    obtain ⟨more, isOpen, e, he⟩ | ⟨u, hu, hasks⟩ := ih
    · exact .inl ⟨more ++ [.bare .elseWord, .bare .number], true, _,
        by simpa using Derives.ifElse .first hi hl hcond hr he helse hnumber⟩
    · exact .inr ⟨u, hu, .yes hi hl hcond hr hasks⟩
  | no hi hl hcond hr hyes hs h ih =>
    obtain ⟨more, isOpen, e, he⟩ | ⟨u, hu, hasks⟩ := ih
    · exact .inl ⟨more, true, _, by simpa using Derives.ifElse .first hi hl hcond hr hyes hs he⟩
    · exact .inr ⟨u, hu, .no hi hl hcond hr hyes hs hasks⟩
  | first htier h ih =>
    obtain ⟨more, isOpen, e, he⟩ | ⟨u, hu, hasks⟩ := ih
    · exact .inl ⟨more, isOpen, e, he.looser htier⟩
    · exact .inr ⟨u, hu, .first htier hasks⟩
  | right hleft hop h ih =>
    obtain ⟨more, isOpen, e, he⟩ | ⟨u, hu, hasks⟩ := ih
    · exact .inl ⟨more, isOpen, _, by simpa using Derives.binary .first hleft hop he⟩
    · exact .inr ⟨u, hu, .right hleft hop hasks⟩
  | statement h ih =>
    obtain ⟨more, isOpen, e, he⟩ | ⟨u, hu, hasks⟩ := ih
    · exact .inl ⟨more, [], e, he.last⟩
    · exact .inr ⟨u, hu, .statement hasks⟩
  | semicolon he hs h ih =>
    obtain ⟨more, exprs, last, hrest⟩ | ⟨u, hu, hasks⟩ := ih
    · exact .inl ⟨more, _, last, by simpa using he.semicolon hs hrest⟩
    · exact .inr ⟨u, hu, .semicolon he hs hasks⟩
  | @argument t read m hclose h ih =>
    obtain ⟨more, isOpen, e, he⟩ | ⟨u, rfl, hasks⟩ := ih
    · exact .inl ⟨more ++ [.bare .rightParen], _, _, [e], (List.append_assoc _ _ _).symm, hparen,
        he.lastArgument⟩
    · cases read with
      | cons s read => exact .inr ⟨u, rfl, .argument hclose hasks⟩
      | nil =>
        -- in front of all arguments a closing parenthesis leaves none
        by_cases hu : u.kind = .rightParen
        · exact .inl ⟨[], [], u, [], rfl, hu, .noArguments⟩
        · exact .inr ⟨u, rfl, .argument (by rintro _ ⟨⟩; exact hu) hasks⟩
  | @comma s t es read isOpen e m he hs h ih =>
    obtain ⟨more, ts, r, args, hts, hr, hrest⟩ | ⟨u, hu, hasks⟩ := ih
    · refine .inl ⟨more, es ++ s :: ts, r, e :: args, ?_, hr, he.comma hs hrest⟩
      simpa using hts
    · exact .inr ⟨u, hu, .comma he hs hasks⟩

section

variable {wanted : Wanted} {read : List Token} {t : Token} {m : Nat}

/-- Where a primary expression is asked for, the tokens before it begin a phrase of the sort. -/
theorem Asks.viable (h : Asks wanted read t m) : wanted.Viable read := by
  have hbegin : (Wanted.expression 5).Viable [] :=
    ⟨[.bare .number], _, _, Derives.bare_number (by decide) (Nat.le_refl 5)⟩
  obtain hviable | ⟨u, ⟨⟩, -⟩ := h.viable_or (.inl hbegin)
  rwa [List.append_nil] at hviable

/-- A token is asked for wherever another one is, unless a phrase of the sort can go on with it. -/
theorem Asks.exchange (h : Asks wanted read t m) (u : Token) :
    wanted.Viable (read ++ [u]) ∨ Asks wanted read u m := by
  refine (h.viable_or (.inr ⟨u, rfl⟩)).imp_right ?_
  rintro ⟨_, ⟨⟩, hasks⟩
  exact hasks

end

/-! ## Asking with too little room -/

namespace Parse

variable {α β : Type}

/-- The nesting is too deep at the first of these tokens or before it; or there are none of them, and
a primary expression is missing. -/
def Stuck (behind : List Token) (r : EStateM.Result ParseError Cursor α) : Prop :=
  TooDeep behind.tail r ∨
    behind = [] ∧ ∃ position c, r = .error (.unexpectedEnd position TokenKind.primaryStart) c

/-- With no more room than `m` levels, the step does not get beyond the tokens read. -/
def Chokes (p : Nat → Parse α) (read behind : List Token) (m : Nat) : Prop :=
  ∀ room c, room ≤ m → c.ahead = read ++ behind → Stuck behind (p room c)

section

variable {p q : Nat → Parse α} {f : Nat → α → Parse β} {read read' behind : List Token} {s : Token}
  {m n : Nat}

theorem Chokes.bind (h : Chokes p read behind m) :
    Chokes (fun room => p room >>= f room) read behind m := by
  intro room c hroom hc
  obtain hdeep | ⟨hbehind, position, c', hrun⟩ := h room c hroom hc
  · exact .inl hdeep.bind
  · exact .inr ⟨hbehind, position, c', bind_error hrun⟩

/-- What chokes behind a move chokes with it. -/
theorem Passes.chokes (h : Passes n p q read (read' ++ behind).head?)
    (hq : Chokes q read' behind m) : Chokes p (read ++ read') behind m := by
  intro room c hroom hc
  rw [List.append_assoc] at hc
  obtain ⟨henough, hlack⟩ := h room c (read' ++ behind) hc rfl
  by_cases hn : room < n
  · exact .inl ((hlack hn).mono (by simp only [List.length_append, List.length_tail]; omega))
  · rw [henough (Nat.le_of_not_lt hn)]
    exact hq room _ hroom rfl

theorem Chokes.here (behind : List Token) : Chokes primary [] behind 0 := by
  intro room c hroom hc
  obtain rfl := Nat.le_zero.1 hroom
  cases behind with
  | nil => exact .inr ⟨rfl, _, _, primary_nil 0 hc⟩
  | cons t rest => exact .inl ⟨t, _, primary_zero hc, Nat.le_refl _⟩

theorem Chokes.primary (h : Chokes (fun room => primaryAfter (primary room) s) read behind m) :
    Chokes primary (s :: read) behind (m + 1) := by
  rintro (_ | room) c hroom hc
  · refine .inl ⟨s, _, primary_zero hc, ?_⟩
    show behind.tail.length ≤ (read ++ behind).length
    simp only [List.length_append, List.length_tail]
    omega
  · rw [primary_succ hc]
    obtain hdeep | ⟨hbehind, position, c', hrun⟩ :=
      h room { c.over [s] (read ++ behind) with depth := c.depth + 1 }
        (Nat.le_of_succ_le_succ hroom) rfl
    · exact .inl hdeep.nested
    · exact .inr ⟨hbehind, position, _, nested_error hrun⟩

end

end Parse

/-- The step for phrases of the sort does not get beyond the tokens read. -/
def Wanted.Chokes (read behind : List Token) (m : Nat) : Wanted → Prop
  | .expression tier =>
    tier ≤ 5 ∧ Parse.Chokes (fun room => tiered (primary room) tier) read behind m
  | .statements => Parse.Chokes (fun room => Parse.statements (primary room)) read behind m
  | .arguments => Parse.Chokes (fun room => Parse.arguments (primary room)) read behind m

section

variable {s t : Token} {read behind ts : List Token} {m tier : Nat} {isOpen : Bool} {e : Node}

theorem Derives.exists_readsWithin (h : Derives ts (.expression tier isOpen e)) :
    ∃ n e', ReadsWithin n ts tier isOpen e' ∧ (tier ≤ 4 → LeadsWithin n ts tier isOpen e') := by
  obtain ⟨n, hnests⟩ := h.exists_nests
  obtain ⟨e', -, -, hread, hleads⟩ := hnests.isReadWithin
  exact ⟨n, e', hread, hleads⟩

theorem Wanted.Chokes.of_primaryAfter
    (h : Parse.Chokes (fun room => primaryAfter (primary room) s) read behind m) :
    (Wanted.expression 5).Chokes (s :: read) behind (m + 1) :=
  ⟨Nat.le_refl 5, h.primary⟩

/-- Where a primary expression is asked for while others are open, there has to be room for one
more than those, and tokens to begin it. What stands there instead of the token makes no difference
unless it closes arguments. -/
theorem Asks.chokes {wanted : Wanted} (h : Asks wanted read t m) (behind : List Token)
    (hbehind : ∀ u, behind.head? = some u → u = t ∨ u.kind ≠ .rightParen) :
    wanted.Chokes read behind m := by
  induction h with
  | here t => exact ⟨Nat.le_refl 5, Parse.Chokes.here behind⟩
  | operand hs h ih =>
    refine Wanted.Chokes.of_primaryAfter ?_
    obtain hs | hs := hs <;> simp only [primaryAfter, hs] <;> exact (ih hbehind).2.bind
  | call hf hl h ih =>
    refine Wanted.Chokes.of_primaryAfter ?_
    simp only [primaryAfter, hf]
    exact (Accepts.accept hl).passes.bind.chokes (ih hbehind).bind
  | @value d x q t read m hd hx hq h ih =>
    refine Wanted.Chokes.of_primaryAfter ?_
    simp only [primaryAfter, hd, Parse.userVar]
    show Parse.Chokes _ ([x] ++ (q :: read)) behind m
    refine (Accepts.expect hx).passes.bind.chokes ?_
    obtain hq | ⟨op, hq⟩ := hq
    · exact (Accepts.accept hq).passes.bind.chokes (ih hbehind).2.bind
    · have hequal : q.kind ≠ .equal := by
        intro heq
        rw [heq] at hq
        cases hq
      show Parse.Chokes _ ([] ++ ([q] ++ read)) behind m
      refine (Accepts.passes (Accepts.accept_none (by rintro _ ⟨⟩; exact hequal))).bind.chokes ?_
      exact (Accepts.acceptAs_some hq).passes.bind.chokes (ih hbehind).2.bind
  | block hl h ih =>
    refine Wanted.Chokes.of_primaryAfter ?_
    simp only [primaryAfter, hl]
    exact (ih hbehind).bind
  | group hl h ih =>
    refine Wanted.Chokes.of_primaryAfter ?_
    simp only [primaryAfter, hl]
    exact (ih hbehind).2.bind
  | cond hi hl h ih =>
    refine Wanted.Chokes.of_primaryAfter ?_
    simp only [primaryAfter, hi, Parse.ifElse]
    exact (Accepts.expect hl).passes.bind.chokes (ih hbehind).2.bind
  | @yes i l r t cs read openCond cond m hi hl hcond hr h ih =>
    obtain ⟨nCond, cond', hcond', -⟩ := hcond.exists_readsWithin
    refine Wanted.Chokes.of_primaryAfter ?_
    simp only [primaryAfter, hi, Parse.ifElse]
    show Parse.Chokes _ ([l] ++ (cs ++ ([r] ++ read))) behind m
    refine (Accepts.expect hl).passes.bind.chokes ?_
    refine (hcond'.before (by rw [hr]; decide)).bind.chokes ?_
    exact (Accepts.expect hr).passes.bind.chokes (ih hbehind).2.bind
  | @no i l r s t cs ys read openCond openYes cond yes m hi hl hcond hr hyes hs h ih =>
    obtain ⟨nCond, cond', hcond', -⟩ := hcond.exists_readsWithin
    obtain ⟨nYes, yes', hyes', -⟩ := hyes.exists_readsWithin
    refine Wanted.Chokes.of_primaryAfter ?_
    simp only [primaryAfter, hi, Parse.ifElse]
    show Parse.Chokes _ ([l] ++ (cs ++ ([r] ++ (ys ++ ([s] ++ read))))) behind m
    refine (Accepts.expect hl).passes.bind.chokes ?_
    refine (hcond'.before (by rw [hr]; decide)).bind.chokes ?_
    refine (Accepts.expect hr).passes.bind.chokes ?_
    refine (hyes'.before (by rw [hs]; decide)).bind.chokes ?_
    exact (Accepts.expect hs).passes.bind.chokes (ih hbehind).2.bind
  | @first t read tier m htier h ih =>
    have htier' : tier ≤ 4 := Nat.le_of_succ_le_succ (ih hbehind).1
    refine ⟨Nat.le_succ_of_le htier', ?_⟩
    rw [show (fun room => tiered (primary room) tier) = _ from
      funext fun room => tiered_eq htier htier']
    exact (ih hbehind).2.bind
  | @right o t ls read op left m hleft hop h ih =>
    obtain ⟨n, left', -, hleads⟩ := hleft.exists_readsWithin
    have hstops : Stops (op.tier + 1) false (some o) := Stops.of_operator hop
    have hmeaning : o.kind.binaryOp?.filter (·.tier = op.tier) = some op := by
      simp [hop, Option.filter]
    refine ⟨Nat.le_succ_of_le op.tier_le_four, ?_⟩
    show Parse.Chokes _ (ls ++ ([o] ++ read)) behind m
    -- the left operand leads to the operator, and the right one is asked for behind it
    refine (hleads op.tier_le_four (some o) hstops
      (Follows.of_kind (TokenKind.mem_followers_of_binaryOp? hop))).chokes ?_
    rw [chainFrom_tiered_eq]
    exact (Accepts.acceptAs_some hmeaning).passes.bind.chokes (ih hbehind).2.bind
  | statement h ih =>
    show Parse.Chokes _ _ _ _
    rw [statements_primary_eq]
    exact (ih hbehind).2.bind
  | @semicolon s t es read isOpen e m he hs h ih =>
    obtain ⟨n, e', he', -⟩ := he.exists_readsWithin
    show Parse.Chokes _ (es ++ ([s] ++ read)) behind m
    rw [← List.append_assoc]
    exact (he'.semicolon hs _).chokes (ih hbehind).bind
  | @argument t read m hclose h ih =>
    show Parse.Chokes _ ([] ++ read) behind m
    rw [arguments_primary_eq]
    refine (Accepts.passes (Accepts.accept_none ?_)).bind.chokes (ih hbehind).2.bind
    cases read with
    | cons s read => exact hclose
    | nil =>
      intro u hu
      obtain rfl | hkind := hbehind u hu
      · exact hclose u rfl
      · exact hkind
  | @comma s t es read isOpen e m he hs h ih =>
    obtain ⟨n, e', he', -⟩ := he.exists_readsWithin
    show Parse.Chokes _ ([] ++ (es ++ ([] ++ ([s] ++ read)))) behind m
    rw [arguments_primary_eq]
    refine (Accepts.passes (a := none) ?_).bind.chokes ?_
    · rw [List.append_assoc, List.head?_append]
      exact he.beginsWell.accept_none _
    refine (he'.before (by rw [hs]; decide)).bind.chokes ?_
    refine (Accepts.passes (Accepts.accept_none (by rintro _ ⟨⟩; rw [hs]; decide))).bind.chokes ?_
    exact (Accepts.expect hs).passes.bind.chokes (ih hbehind).bind

end

end ExprFront
