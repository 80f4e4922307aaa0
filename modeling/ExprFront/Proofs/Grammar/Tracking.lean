import ExprFront.Proofs.Grammar.Phrase
import ExprFront.Proofs.Parse.Progress

/-!
# What is read is derived

A step for phrases of a sort never reads more than it can make sense of. If it succeeds, the tokens
read derive the tree; if it fails, any token that it expected instead can stand behind those before
the fault in a phrase of the sort. Both are one statement, since a phrase is read in parts: a fault in
one part leaves the parts before it read and the parts behind it to be chosen.
-/

namespace ExprFront.Parse

variable {α β : Type}

/-! ## Accounts of a step -/

/-- An account of what a step reads: its result, the token behind, and the tokens read. -/
abbrev Account (α : Type) := α → Option Token → List Token → Prop

namespace Account

/-- The account of what comes behind tokens that have been read. -/
def behind (account : Account α) (read : List Token) : Account α :=
  fun a next more => account a next (read ++ more)

/-- Some tokens meet the account. -/
def Completable (account : Account α) : Prop :=
  ∃ a next read, account a next read

/-- The tokens can be completed to some that meet the account. -/
def Viable (account : Account α) (read : List Token) : Prop :=
  (account.behind read).Completable

/-- There are kinds to choose from, and with any token of theirs the tokens can still be completed. -/
structure Offers (account : Account α) (read : List Token) (kinds : List TokenKind) : Prop where
  ne_nil : kinds ≠ []
  viable : ∀ t : Token, t.kind ∈ kinds → account.Viable (read ++ [t])

@[simp] theorem behind_apply (account : Account α) (read more : List Token) (a : α)
    (next : Option Token) : account.behind read a next more = account a next (read ++ more) := rfl

theorem behind_behind (account : Account α) (read more : List Token) :
    (account.behind read).behind more = account.behind (read ++ more) := by
  funext a next rest
  simp only [behind, List.append_assoc]

theorem Viable.completable {account : Account α} {read : List Token} (h : account.Viable read) :
    account.Completable := by
  obtain ⟨a, next, more, ha⟩ := h
  exact ⟨a, next, read ++ more, ha⟩

theorem Offers.of_behind {account : Account α} {read more : List Token} {kinds : List TokenKind}
    (h : (account.behind read).Offers more kinds) : account.Offers (read ++ more) kinds := by
  refine ⟨h.ne_nil, fun t ht => ?_⟩
  have hviable := h.viable t ht
  rwa [Viable, behind_behind, ← List.append_assoc] at hviable

end Account

/-- The outcome of a step meets the account as far as the step got. Nothing is said of a lack of
room. -/
def Meets (account : Account α) (c : Cursor) : EStateM.Result ParseError Cursor α → Prop
  | .ok a c' => ∃ read, c.ahead = read ++ c'.ahead ∧ account a c'.ahead.head? read
  | .error (.unexpectedToken t expected) c' => ∃ read, c.ahead = read ++ t :: c'.ahead ∧
      account.Offers read expected
  | .error (.unexpectedEnd _ expected) _ => account.Offers c.ahead expected
  | .error (.nestingTooDeep _) _ => True

/-- What is met behind tokens that have been read is met with them. -/
theorem Meets.over {account : Account α} {read : List Token} {c c' : Cursor}
    {r : EStateM.Result ParseError Cursor α} (h : Meets (account.behind read) c' r)
    (hc : c.ahead = read ++ c'.ahead) : Meets account c r := by
  rcases r with ⟨a, c''⟩ | ⟨⟨_, expected⟩ | _ | _, c''⟩
  · obtain ⟨more, hc', ha⟩ := h
    exact ⟨read ++ more, by rw [hc, hc', List.append_assoc], ha⟩
  · show account.Offers c.ahead expected
    rw [hc]
    exact Account.Offers.of_behind h
  · obtain ⟨more, hc', hmore⟩ := h
    exact ⟨read ++ more, by rw [hc, hc', List.append_assoc], hmore.of_behind⟩
  · trivial

/-- The account can be met, and the outcome of the step at a cursor meets it. -/
structure Tracks (account : Account α) (p : Parse α) (c : Cursor) : Prop where
  completable : account.Completable
  meets : Meets account c (p c)

section

variable {account : Account α} {account' : Account β} {p : Parse α} {f : α → Parse β} {c : Cursor}

/-- The account of a sequence can be met if that of its first part can, and then what is left of it;
and what is left has to be met where the first part in fact ends. -/
theorem Tracks.bind_run (hp : Tracks account p c)
    (hcomplete : ∀ a next read, account a next read → account'.Viable read)
    (hf : ∀ a c' read, p c = .ok a c' → account a c'.ahead.head? read →
      Meets (account'.behind read) c' (f a c')) : Tracks account' (p >>= f) c := by
  -- a fault in the first part leaves the rest of it to be chosen, and then all of the second
  have hviable : ∀ read, account.Viable read → account'.Viable read := by
    rintro read ⟨a, next, more, ha⟩
    obtain ⟨b, next', rest, hb⟩ := hcomplete a next (read ++ more) ha
    exact ⟨b, next', more ++ rest, by rwa [Account.behind, List.append_assoc] at hb⟩
  have hoffers : ∀ read kinds, account.Offers read kinds → account'.Offers read kinds :=
    fun read kinds h => ⟨h.ne_nil, fun t ht => hviable _ (h.viable t ht)⟩
  constructor
  · obtain ⟨a, next, read, ha⟩ := hp.completable
    exact (hcomplete a next read ha).completable
  · have hmeets := hp.meets
    rw [bind_apply]
    cases hrun : p c with
    | error e c' =>
      rw [hrun] at hmeets
      cases e with
      | unexpectedToken t expected =>
        obtain ⟨read, hc, hread⟩ := hmeets
        exact ⟨read, hc, hoffers read expected hread⟩
      | unexpectedEnd position expected => exact hoffers c.ahead expected hmeets
      | nestingTooDeep t => trivial
    | ok a c' =>
      rw [hrun] at hmeets
      obtain ⟨read, hc, ha⟩ := hmeets
      exact (hf a c' read hrun ha).over hc

/-- A sequence tracks its account if what follows the first part does from wherever it might end. -/
theorem Tracks.bind (hp : Tracks account p c)
    (hf : ∀ a c' read, account a c'.ahead.head? read → Tracks (account'.behind read) (f a) c') :
    Tracks account' (p >>= f) c := by
  refine hp.bind_run ?_ fun a c' read _ ha => (hf a c' read ha).meets
  intro a next read ha
  have hc : (Cursor.mk [] next.toList 0).ahead.head? = next := by cases next <;> rfl
  exact (hf a _ read (by rwa [hc])).completable

theorem Tracks.pure {a : α} (h : account a c.ahead.head? []) : Tracks account (Pure.pure a) c :=
  ⟨⟨a, _, [], h⟩, [], rfl, h⟩

end

/-! ## Single tokens -/

/-- One token of the kind. -/
def oneOf (kind : TokenKind) : Account Token :=
  fun t _ read => read = [t] ∧ t.kind = kind

/-- A token with a meaning, or none that has one behind. -/
def meant (meaning : Token → Option α) : Account (Option α)
  | none, next, read => read = [] ∧ ∀ t, next = some t → meaning t = none
  | some a, _, read => ∃ t, read = [t] ∧ meaning t = some a

section

variable {c : Cursor}

theorem exists_of_kind (kind : TokenKind) : ∃ t : Token, t.kind = kind :=
  ⟨.bare kind, rfl⟩

theorem oneOf_offers (kind : TokenKind) : (oneOf kind).Offers [] [kind] :=
  ⟨List.cons_ne_nil _ _, fun t ht => ⟨t, none, [], rfl, List.mem_singleton.1 ht⟩⟩

theorem Tracks.expect (kind : TokenKind) : Tracks (oneOf kind) (expect kind) c := by
  constructor
  · obtain ⟨t, ht⟩ := exists_of_kind kind
    exact ⟨t, none, [t], rfl, ht⟩
  cases hc : c.ahead with
  | nil =>
    rw [expect_nil kind hc]
    show (oneOf kind).Offers c.ahead [kind]
    rw [hc]
    exact oneOf_offers kind
  | cons t rest =>
    rw [expect_cons kind hc]
    split
    · rename_i hkind
      exact ⟨[t], hc, rfl, hkind⟩
    · exact ⟨[], hc, oneOf_offers kind⟩

theorem Tracks.acceptAs (meaning : Token → Option α) :
    Tracks (meant meaning) (acceptAs meaning) c := by
  refine ⟨⟨none, none, [], rfl, by rintro t ⟨⟩⟩, ?_⟩
  cases hc : c.ahead with
  | nil =>
    rw [acceptAs_nil meaning hc]
    exact ⟨[], rfl, rfl, by simp [hc]⟩
  | cons t rest =>
    cases hm : meaning t with
    | none =>
      rw [acceptAs_none hc hm]
      exact ⟨[], rfl, rfl, by simp [hc, hm]⟩
    | some a =>
      rw [acceptAs_some hc hm]
      exact ⟨[t], hc, t, rfl, hm⟩

/-- Of a token that has been accepted, the kind is known. -/
theorem meant_accept {kind : TokenKind} {t : Token} {next : Option Token} {read : List Token}
    (h : meant (fun t => if [kind].contains t.kind then some t else none) (some t) next read) :
    read = [t] ∧ t.kind = kind := by
  obtain ⟨u, rfl, hu⟩ := h
  simp only [List.contains_cons, List.contains_nil, Bool.or_false, beq_iff_eq] at hu
  split at hu
  · cases hu
    exact ⟨rfl, by assumption⟩
  · cases hu

end

/-! ## Chains -/

/-- The tokens read are an expression of the tier, and it stops at the token behind. -/
def anExpression (tier : Nat) : Account Node :=
  fun tree next read => ∃ isOpen, Derives read (.expression tier isOpen tree) ∧
    Stops tier isOpen next

theorem anExpression_completable {tier : Nat} (h : 1 ≤ tier) (h' : tier ≤ 5) :
    (anExpression tier).Completable := by
  obtain ⟨t, ht⟩ := exists_of_kind .number
  have hnumber := (Derives.number .first ht).loosen h h'
  exact ⟨_, none, [t], false, hnumber, Stops.at_end tier false⟩

/-- An operator of the tier, where a chain that has been read can go on with it; or none of the
tier or a tighter one. -/
def anOperator (tier : Nat) (isOpen : Bool) : Account (Option BinaryOp)
  | none, next, read => read = [] ∧ Stops tier isOpen next
  | some op, _, read => ∃ t, read = [t] ∧ t.kind.binaryOp? = some op ∧ op.tier = tier ∧
      isOpen = false

theorem Tracks.operator {tier : Nat} {isOpen : Bool} {c : Cursor}
    (h : Stops (tier + 1) isOpen c.ahead.head?) :
    Tracks (anOperator tier isOpen) (operator tier) c := by
  refine ⟨⟨none, none, [], rfl, Stops.at_end tier isOpen⟩, ?_⟩
  cases hc : c.ahead with
  | nil =>
    rw [show Parse.operator tier c = _ from acceptAs_nil _ hc]
    exact ⟨[], rfl, rfl, by rw [hc]; exact Stops.at_end tier isOpen⟩
  | cons t rest =>
    rw [hc] at h
    cases hm : t.kind.binaryOp?.filter (·.tier = tier) with
    | none =>
      rw [show Parse.operator tier c = _ from acceptAs_none hc hm]
      refine ⟨[], rfl, rfl, ?_⟩
      rw [hc]
      rintro _ op ⟨⟩ hop
      obtain ⟨hlt, hopen⟩ := h t op rfl hop
      have hne : op.tier ≠ tier := by simpa [hop, Option.filter_eq_none_iff] using hm
      exact ⟨by omega, hopen⟩
    | some op =>
      -- an operator comes next at all only where the left operand is not open
      rw [show Parse.operator tier c = _ from acceptAs_some hc hm]
      obtain ⟨hop, htier⟩ := Option.filter_eq_some_iff.1 hm
      exact ⟨[t], hc, t, rfl, hop, by simpa using htier, (h t op rfl hop).2⟩

theorem Tracks.chainFrom {tier : Nat} {operand : Parse Node} (htier : 1 ≤ tier) (htier' : tier ≤ 4)
    (ha : Advances operand) (hoperand : ∀ c, Tracks (anExpression (tier + 1)) operand c)
    {ls : List Token} {left : Node} {isOpen : Bool} {c : Cursor}
    (hleft : Derives ls (.expression tier isOpen left))
    (hstops : Stops (tier + 1) isOpen c.ahead.head?) :
    Tracks ((anExpression tier).behind ls) (chainFrom tier operand left) c := by
  rw [chainFrom_eq ha]
  -- induction on the tokens ahead: a round passes over an operator and an operand
  refine Tracks.bind_run (Tracks.operator hstops) ?_ ?_
  · intro op next read hop
    rcases op with _ | op
    · obtain ⟨rfl, hstops⟩ := hop
      exact ⟨left, next, [], isOpen, by simpa using hleft, hstops⟩
    · obtain ⟨t, rfl, hop, rfl, rfl⟩ := hop
      obtain ⟨right, next', rs, isOpen', hright, hstops'⟩ :=
        anExpression_completable (Nat.le_succ_of_le htier) (Nat.succ_le_succ htier')
      refine ⟨.binary .first op left right, none, rs, isOpen', ?_, Stops.at_end _ _⟩
      simpa using Derives.binary .first hleft hop hright
  · intro op c₁ read hrun hop
    rcases op with _ | op
    · obtain ⟨rfl, hstops⟩ := hop
      exact ⟨[], rfl, isOpen, by simpa using hleft, hstops⟩
    · obtain ⟨t, rfl, hop, rfl, rfl⟩ := hop
      refine (Tracks.bind_run (hoperand c₁) ?_ ?_).meets
      · rintro right next rs ⟨isOpen', hright, hstops'⟩
        refine ⟨.binary .first op left right, none, [], isOpen', ?_, Stops.at_end _ _⟩
        simpa using Derives.binary .first hleft hop hright
      · rintro right c₂ rs hrun' ⟨isOpen', hright, hstops'⟩
        have k₁ : c₁.ahead.length ≤ c.ahead.length := Keeps.acceptAs _ _ _ _ hrun
        have k₂ : c₂.ahead.length < c₁.ahead.length := ha _ _ _ hrun'
        -- the operation read so far is the left operand of the rest
        have hchain := Tracks.chainFrom htier htier' ha hoperand
          (Derives.binary left.position hleft hop hright) hstops'
        simpa only [Account.behind_behind, List.append_assoc, List.singleton_append] using
          hchain.meets
termination_by c.ahead.length

theorem Tracks.chained {tier : Nat} {operand : Parse Node} (htier : 1 ≤ tier) (htier' : tier ≤ 4)
    (ha : Advances operand) (hoperand : ∀ c, Tracks (anExpression (tier + 1)) operand c)
    (c : Cursor) : Tracks (anExpression tier) (chained tier operand) c := by
  refine (hoperand c).bind ?_
  rintro left c₁ ls ⟨isOpen, hleft, hstops⟩
  exact Tracks.chainFrom htier htier' ha hoperand (hleft.looser htier) hstops

/-! ## Rows of expressions -/

section

variable {p : Parse Node} {c : Cursor}

theorem Tracks.expression (ha : Advances p) (hp : ∀ c, Tracks (anExpression 5) p c)
    (c : Cursor) : Tracks (anExpression 1) (expression p) c := by
  have h₄ := Tracks.chained (by decide) (by decide) ha hp
  have h₃ := Tracks.chained (by decide) (by decide) ha.chained h₄
  have h₂ := Tracks.chained (by decide) (by decide) ha.chained.chained h₃
  exact Tracks.chained (by decide) (by decide) ha.chained.chained.chained h₂ c

/-- The tokens read are statements. -/
def theStatements : Account (List Node × Node) :=
  fun (exprs, last) _ read => Derives read (.statements exprs last)

@[simp] theorem theStatements_apply (exprs : List Node) (last : Node) (next : Option Token)
    (read : List Token) :
    theStatements (exprs, last) next read = Derives read (.statements exprs last) := rfl

/-- The tokens read are arguments and the parenthesis that closes them. -/
def theArguments : Account (List Node) :=
  fun args _ read => ∃ ts r, read = ts ++ [r] ∧ Derives ts (.arguments args) ∧
    r.kind = .rightParen

theorem theStatements_completable : theStatements.Completable := by
  obtain ⟨e, next, read, isOpen, he, -⟩ := anExpression_completable (Nat.le_refl 1) (by decide)
  exact ⟨([], e), next, read, he.last⟩

theorem theArguments_completable : theArguments.Completable := by
  obtain ⟨r, hr⟩ := exists_of_kind .rightParen
  exact ⟨[], none, [r], [], r, rfl, .noArguments, hr⟩

theorem Tracks.statements (ha : Advances p) (hp : ∀ c, Tracks (anExpression 5) p c) (c : Cursor) :
    Tracks theStatements (statements p) c := by
  rw [statements_eq ha]
  -- induction on the tokens ahead; up to a fault the statements can end with any expression
  refine (Tracks.expression ha hp c).bind_run ?_ ?_
  · rintro e next es ⟨isOpen, he, -⟩
    exact ⟨([], e), next, [], by simpa using he.last⟩
  · rintro e c₁ es hrun₁ ⟨isOpen, he, -⟩
    refine ((Tracks.acceptAs _).bind_run ?_ ?_).meets
    · intro s next read hs
      rcases s with _ | s
      · obtain ⟨rfl, -⟩ := hs
        exact ⟨([], e), next, [], by simpa using he.last⟩
      · obtain ⟨rfl, hkind⟩ := meant_accept hs
        obtain ⟨⟨exprs, last⟩, next', us, hus⟩ := theStatements_completable
        exact ⟨(e :: exprs, last), next', us, by simpa using he.semicolon hkind hus⟩
    · intro s c₂ read hrun₂ hs
      rcases s with _ | s
      · obtain ⟨rfl, -⟩ := hs
        exact ⟨[], rfl, by simpa using he.last⟩
      · obtain ⟨rfl, hkind⟩ := meant_accept hs
        have k₁ : c₁.ahead.length < c.ahead.length := ha.expression _ _ _ hrun₁
        have k₂ : c₂.ahead.length ≤ c₁.ahead.length := Keeps.accept _ _ _ _ hrun₂
        refine ((Tracks.statements ha hp c₂).bind ?_).meets
        rintro ⟨exprs, last⟩ c₃ us hus
        refine Tracks.pure ?_
        simpa using he.semicolon hkind hus
termination_by c.ahead.length

theorem Tracks.arguments (ha : Advances p) (hp : ∀ c, Tracks (anExpression 5) p c) (c : Cursor) :
    Tracks theArguments (arguments p) c := by
  rw [arguments_eq ha]
  -- up to a fault behind an argument, a parenthesis completes the arguments
  have hlast : ∀ {es : List Token} {isOpen : Bool} {e : Node} {r : Token},
      Derives es (.expression 1 isOpen e) → r.kind = .rightParen →
      ∀ next, theArguments [e] next (es ++ [r]) :=
    fun he hr _ => ⟨_, _, rfl, he.lastArgument, hr⟩
  refine (Tracks.acceptAs _).bind_run ?_ ?_
  · intro r next read hr
    rcases r with _ | r
    · obtain ⟨rfl, -⟩ := hr
      exact theArguments_completable
    · obtain ⟨rfl, hkind⟩ := meant_accept hr
      exact ⟨[], next, [], [], r, rfl, .noArguments, hkind⟩
  · intro r c₁ read hrun₁ hr
    rcases r with _ | r
    · obtain ⟨rfl, -⟩ := hr
      refine ((Tracks.expression ha hp c₁).bind_run ?_ ?_).meets
      · rintro e next es ⟨isOpen, he, -⟩
        obtain ⟨r, hr⟩ := exists_of_kind .rightParen
        exact ⟨[e], next, [r], hlast he hr next⟩
      · rintro e c₂ es hrun₂ ⟨isOpen, he, -⟩
        refine ((Tracks.acceptAs _).bind_run ?_ ?_).meets
        · intro r next read hr
          rcases r with _ | r
          · obtain ⟨rfl, -⟩ := hr
            obtain ⟨r, hr⟩ := exists_of_kind .rightParen
            exact ⟨[e], next, [r], hlast he hr next⟩
          · obtain ⟨rfl, hkind⟩ := meant_accept hr
            exact ⟨[e], next, [], hlast he hkind next⟩
        · intro r c₃ read hrun₃ hr
          rcases r with _ | r
          · obtain ⟨rfl, -⟩ := hr
            refine ((Tracks.expect .comma).bind_run ?_ ?_).meets
            · rintro s next _ ⟨rfl, hs⟩
              obtain ⟨r, hr⟩ := exists_of_kind .rightParen
              exact ⟨[e], next, [r], es ++ [s], r, by simp, he.comma hs .noArguments, hr⟩
            · rintro s c₄ _ hrun₄ ⟨rfl, hs⟩
              have k₁ : c₁.ahead.length ≤ c.ahead.length := Keeps.accept _ _ _ _ hrun₁
              have k₂ : c₂.ahead.length < c₁.ahead.length := ha.expression _ _ _ hrun₂
              have k₃ : c₃.ahead.length ≤ c₂.ahead.length := Keeps.accept _ _ _ _ hrun₃
              have k₄ : c₄.ahead.length < c₃.ahead.length := Advances.expect _ _ _ _ hrun₄
              refine ((Tracks.arguments ha hp c₄).bind ?_).meets
              rintro args c₅ _ ⟨us, r, rfl, hus, hr⟩
              refine Tracks.pure ⟨es ++ s :: us, r, by simp, he.comma hs hus, hr⟩
          · obtain ⟨rfl, hkind⟩ := meant_accept hr
            exact ⟨[], rfl, hlast he hkind c₃.ahead.head?⟩
    · obtain ⟨rfl, hkind⟩ := meant_accept hr
      exact ⟨[], rfl, [], r, rfl, .noArguments, hkind⟩
termination_by c.ahead.length

/-! ## Primary expressions -/

/-- Behind an expression that is not open, an operator of any tier continues a looser one. -/
theorem Stops.closed (next : Option Token) : Stops 5 false next :=
  fun _ op _ _ => ⟨Nat.lt_succ_of_le op.tier_le_four, rfl⟩

/-- What is read of a primary expression behind tokens that complete it. -/
theorem Tracks.done {read : List Token} {isOpen : Bool} {tree : Node}
    (h : Derives read (.expression 5 isOpen tree)) (hstops : Stops 5 isOpen c.ahead.head?) :
    Tracks ((anExpression 5).behind read) (Pure.pure tree) c :=
  Tracks.pure ⟨isOpen, by rwa [List.append_nil], hstops⟩

theorem Tracks.userVar (ha : Advances p) (hp : ∀ c, Tracks (anExpression 5) p c) {d : Token}
    (hd : d.kind = .dollar) (c : Cursor) :
    Tracks ((anExpression 5).behind [d]) (userVar p d) c := by
  have hvar : ∀ {x : Token}, x.kind = .identifier →
      Derives [d, x] (.expression 5 false (.userVar d.position x.payload)) :=
    fun hx => .userVar d.position hd hx
  unfold Parse.userVar
  refine (Tracks.expect .identifier).bind ?_
  rintro x c₁ _ ⟨rfl, hx⟩
  refine (Tracks.acceptAs _).bind_run ?_ ?_
  · intro q next read hq
    rcases q with _ | q
    · obtain ⟨rfl, -⟩ := hq
      exact ⟨_, next, [], false, hvar hx, Stops.closed next⟩
    · obtain ⟨rfl, hkind⟩ := meant_accept hq
      obtain ⟨e, next', es, isOpen, he, hstops⟩ := anExpression_completable (Nat.le_refl 1) (by decide)
      exact ⟨_, next', es, true, .assign d.position hd hx hkind he, hstops.of_one 5 true⟩
  · rintro (_ | q) c₂ read - hq
    · obtain ⟨rfl, -⟩ := hq
      refine ((Tracks.acceptAs _).bind_run ?_ ?_).meets
      · intro op next read hop
        rcases op with _ | op
        · obtain ⟨rfl, -⟩ := hop
          exact ⟨_, next, [], false, hvar hx, Stops.closed next⟩
        · obtain ⟨q, rfl, hop⟩ := hop
          obtain ⟨e, next', es, isOpen, he, hstops⟩ :=
            anExpression_completable (Nat.le_refl 1) (by decide)
          exact ⟨_, next', es, true, .mathAssign d.position hd hx hop he, hstops.of_one 5 true⟩
      · rintro (_ | op) c₃ read - hop
        · obtain ⟨rfl, -⟩ := hop
          exact ⟨[], rfl, false, hvar hx, Stops.closed _⟩
        · obtain ⟨q, rfl, hop⟩ := hop
          refine ((Tracks.expression ha hp c₃).bind ?_).meets
          rintro e c₄ es ⟨isOpen, he, hstops⟩
          exact Tracks.pure ⟨true, by simpa using .mathAssign d.position hd hx hop he,
            hstops.of_one 5 true⟩
    · obtain ⟨rfl, hkind⟩ := meant_accept hq
      refine ((Tracks.expression ha hp c₂).bind ?_).meets
      rintro e c₃ es ⟨isOpen, he, hstops⟩
      exact Tracks.pure ⟨true, by simpa using .assign d.position hd hx hkind he,
        hstops.of_one 5 true⟩

theorem Tracks.ifElse (ha : Advances p) (hp : ∀ c, Tracks (anExpression 5) p c) {i : Token}
    (hi : i.kind = .ifWord) (c : Cursor) :
    Tracks ((anExpression 5).behind [i]) (ifElse p i) c := by
  have hexpr := Tracks.expression ha hp
  unfold Parse.ifElse
  -- the tokens of each part go in front of what the parts behind it have to complete
  refine (Tracks.expect .leftParen).bind ?_
  rintro l c₁ _ ⟨rfl, hl⟩
  refine (hexpr c₁).bind ?_
  rintro cond c₂ cs ⟨openCond, hcond, -⟩
  refine (Tracks.expect .rightParen).bind ?_
  rintro r c₃ _ ⟨rfl, hr⟩
  refine (hexpr c₃).bind ?_
  rintro yes c₄ ys ⟨openYes, hyes, -⟩
  refine (Tracks.expect .elseWord).bind ?_
  rintro s c₅ _ ⟨rfl, hs⟩
  refine (hexpr c₅).bind ?_
  rintro no c₆ ns ⟨openNo, hno, hstops⟩
  refine Tracks.pure ⟨true, ?_, hstops.of_one 5 true⟩
  simpa using Derives.ifElse i.position hi hl hcond hr hyes hs hno

/-- Behind a token that begins a primary expression, what is read completes one. -/
theorem Tracks.primaryAfter (ha : Advances p) (hp : ∀ c, Tracks (anExpression 5) p c) {t : Token}
    (ht : t.kind ∈ TokenKind.primaryStart) (c : Cursor) :
    Tracks ((anExpression 5).behind [t]) (primaryAfter p t) c := by
  unfold Parse.primaryAfter
  split
  case h_1 hkind => exact Tracks.done (.number t.position hkind) (Stops.closed _)
  case h_2 hkind => exact Tracks.done (.trueWord t.position hkind) (Stops.closed _)
  case h_3 hkind => exact Tracks.done (.falseWord t.position hkind) (Stops.closed _)
  case h_4 hkind =>
    refine (hp c).bind ?_
    rintro e c₁ es ⟨isOpen, he, hstops⟩
    exact Tracks.done (.negate t.position hkind he) hstops
  case h_5 hkind =>
    refine (hp c).bind ?_
    rintro e c₁ es ⟨isOpen, he, hstops⟩
    exact Tracks.done (.not t.position hkind he) hstops
  case h_6 hkind =>
    refine (Tracks.acceptAs _).bind_run ?_ ?_
    · intro l next read hl
      rcases l with _ | l
      · obtain ⟨rfl, -⟩ := hl
        exact ⟨_, next, [], false, .var t.position hkind, Stops.closed next⟩
      · obtain ⟨rfl, hkind'⟩ := meant_accept hl
        obtain ⟨args, next', _, ts, r, rfl, hargs, hr⟩ := theArguments_completable
        exact ⟨_, next', ts ++ [r], false, .call t.position hkind hkind' hargs hr, Stops.closed _⟩
    · rintro (_ | l) c₁ read - hl
      · obtain ⟨rfl, -⟩ := hl
        exact ⟨[], rfl, false, .var t.position hkind, Stops.closed _⟩
      · obtain ⟨rfl, hkind'⟩ := meant_accept hl
        refine ((Tracks.arguments ha hp c₁).bind ?_).meets
        rintro args c₂ _ ⟨ts, r, rfl, hargs, hr⟩
        exact Tracks.done (.call t.position hkind hkind' hargs hr) (Stops.closed _)
  case h_7 hkind => exact Tracks.userVar ha hp hkind c
  case h_8 hkind =>
    refine (Tracks.statements ha hp c).bind ?_
    rintro ⟨exprs, last⟩ c₁ ts hbody
    refine (Tracks.expect .rightBrace).bind ?_
    rintro r c₂ _ ⟨rfl, hr⟩
    rw [Account.behind_behind, Account.behind_behind]
    exact Tracks.done (.block t.position hkind hbody hr) (Stops.closed _)
  case h_9 hkind =>
    refine (Tracks.expression ha hp c).bind ?_
    rintro e c₁ es ⟨isOpen, he, -⟩
    refine (Tracks.expect .rightParen).bind ?_
    rintro r c₂ _ ⟨rfl, hr⟩
    rw [Account.behind_behind, Account.behind_behind]
    exact Tracks.done (.group hkind he hr) (Stops.closed _)
  case h_10 hkind => exact Tracks.ifElse ha hp hkind c
  case h_11 => simp_all [TokenKind.primaryStart]

end

theorem Tracks.nested {account : Account α} {p : Parse α} (h : ∀ c, Tracks account p c)
    (c : Cursor) : Tracks account (nested p) c := by
  obtain ⟨hcomplete, hmeets⟩ := h { c with depth := c.depth + 1 }
  refine ⟨hcomplete, ?_⟩
  unfold Parse.nested
  cases hrun : p { c with depth := c.depth + 1 } with
  | ok a c' =>
    rw [hrun] at hmeets
    exact hmeets
  | error e c' =>
    rw [hrun] at hmeets
    cases e with
    | unexpectedToken t expected => exact hmeets
    | unexpectedEnd position expected => exact hmeets
    | nestingTooDeep t => trivial

/-- Every kind that begins a primary expression begins one that can be completed. -/
theorem anExpression_offers : (anExpression 5).Offers [] TokenKind.primaryStart := by
  have hnumber : Derives [.bare .number] (.expression 1 false (.number .first .absent)) :=
    (Derives.number .first rfl).loosen (Nat.le_refl 1) (by decide)
  have hoperand : Derives [.bare .number] (.expression 5 false (.number .first .absent)) :=
    .number .first rfl
  refine ⟨List.cons_ne_nil _ _, fun t ht => ?_⟩
  -- numbers fill every place for an expression, and whatever has been opened is closed
  have hviable : ∀ more isOpen e, Derives (t :: more) (.expression 5 isOpen e) →
      (anExpression 5).Viable ([] ++ [t]) :=
    fun more isOpen e he => ⟨e, none, more, isOpen, he, Stops.at_end 5 isOpen⟩
  simp only [TokenKind.primaryStart, List.mem_cons, List.not_mem_nil, or_false] at ht
  obtain ht | ht | ht | ht | ht | ht | ht | ht | ht | ht := ht
  · exact hviable _ _ _ (.number .first ht)
  · exact hviable _ _ _ (.trueWord .first ht)
  · exact hviable _ _ _ (.falseWord .first ht)
  · exact hviable _ _ _ (.negate .first ht hoperand)
  · exact hviable _ _ _ (.not .first ht hoperand)
  · exact hviable _ _ _ (.var .first ht)
  · exact hviable _ _ _ (.userVar (x := .bare .identifier) .first ht rfl)
  · exact hviable _ _ _ (.block (r := .bare .rightBrace) .first ht hnumber.last rfl)
  · exact hviable _ _ _ (.group (r := .bare .rightParen) ht hnumber rfl)
  · exact hviable _ _ _ (.ifElse (l := .bare .leftParen) (r := .bare .rightParen)
      (s := .bare .elseWord) .first ht rfl hnumber rfl hnumber rfl hnumber)

theorem Tracks.primary (room : Nat) (c : Cursor) : Tracks (anExpression 5) (primary room) c := by
  have hcomplete : (anExpression 5).Completable := anExpression_completable (by decide) (by decide)
  refine ⟨hcomplete, ?_⟩
  -- a level of nesting takes the account of the level below it
  induction room generalizing c with
  | zero =>
    cases hc : c.ahead with
    | nil =>
      rw [primary_nil 0 hc]
      show (anExpression 5).Offers c.ahead TokenKind.primaryStart
      rw [hc]
      exact anExpression_offers
    | cons t rest =>
      rw [primary_zero hc]
      trivial
  | succ room ih =>
    cases hc : c.ahead with
    | nil =>
      rw [primary_nil (room + 1) hc]
      show (anExpression 5).Offers c.ahead TokenKind.primaryStart
      rw [hc]
      exact anExpression_offers
    | cons t rest =>
      rw [show Parse.primary (room + 1) c = _ from bind_ok (advance_cons _ hc)]
      by_cases ht : t.kind ∈ TokenKind.primaryStart
      · have hbehind := Tracks.nested (Tracks.primaryAfter (Advances.primary room)
          (fun c => ⟨hcomplete, ih c⟩) ht) { c with passed := t :: c.passed, ahead := rest }
        exact hbehind.meets.over hc
      -- nothing has been read that would have to be completed
      · rw [primaryAfter_of_notMem _ ht]
        exact ⟨[], hc, anExpression_offers⟩

/-- The statements of a program make sense of all that they read. -/
theorem Tracks.statements_primary (room : Nat) (c : Cursor) :
    Tracks theStatements (Parse.statements (Parse.primary room)) c :=
  Tracks.statements (Advances.primary room) (Tracks.primary room) c

end ExprFront.Parse
