import ExprFront.Proofs.Grammar.Asking
import ExprFront.Proofs.Grammar.Tracking
import Mathlib.Data.Nat.Init

/-!
# Where a lack of room is found

Nesting is found too deep only at a token that is asked for as the beginning of a primary expression
while all of the room is taken. A step is followed through its parts: what a part has read is put in
front of what the parts behind it ask for.
-/

namespace ExprFront.Parse

variable {α β : Type}

/-! ## What a step has read -/

/-- The step succeeds only with the cursor behind tokens that meet the account. -/
def ReadsAt (account : Account α) (p : Parse α) (c : Cursor) : Prop :=
  ∀ a c', p c = .ok a c' → ∃ read, c.ahead = read ++ c'.ahead ∧ c' = c.over read c'.ahead ∧
    account a c'.ahead.head? read

/-- A local step that tracks its account reads nothing else. -/
theorem LocalAt.readsAt {account : Account α} {p : Nat → Parse α} {room : Nat} {c : Cursor}
    (hlocal : LocalAt p room c) (h : Tracks account (p room) c) : ReadsAt account (p room) c := by
  intro a c' hrun
  have hmeets := h.meets
  unfold LocalAt at hlocal
  rw [hrun] at hlocal hmeets
  obtain ⟨read, hread, hover, -⟩ := hlocal
  obtain ⟨read', hread', ha⟩ := hmeets
  -- both are the tokens that are no longer ahead
  obtain rfl : read' = read := List.append_cancel_right (hread'.symm.trans hread)
  exact ⟨read', hread, hover, ha⟩

section

variable {c : Cursor}

theorem ReadsAt.expect (kind : TokenKind) : ReadsAt (oneOf kind) (expect kind) c :=
  have hlocal : LocalAt (fun _ => Parse.expect kind) 0 c := .expect kind
  hlocal.readsAt (Tracks.expect kind)

theorem ReadsAt.acceptAs (meaning : Token → Option α) :
    ReadsAt (meant meaning) (acceptAs meaning) c :=
  have hlocal : LocalAt (fun _ => Parse.acceptAs meaning) 0 c := .acceptAs meaning
  hlocal.readsAt (Tracks.acceptAs meaning)

theorem ReadsAt.operator {tier : Nat} {isOpen : Bool} (h : Stops (tier + 1) isOpen c.ahead.head?) :
    ReadsAt (anOperator tier isOpen) (operator tier) c :=
  have hlocal : LocalAt (fun _ => Parse.operator tier) 0 c := .acceptAs _
  hlocal.readsAt (Tracks.operator h)

end

/-- What holds for primary expressions, and for a tier if it does for the next, holds for all
tiers. -/
theorem tier_induction {motive : Nat → Prop} (primary : motive 5)
    (looser : ∀ tier, 1 ≤ tier → tier ≤ 4 → motive (tier + 1) → motive tier) {tier : Nat}
    (h : 1 ≤ tier) (h' : tier ≤ 5) : motive tier :=
  Nat.decreasingInduction' (fun k hk hle => looser k (Nat.le_trans h hle) (Nat.le_of_lt_succ hk)) h'
    primary

theorem ReadsAt.tiered {tier : Nat} (h : 1 ≤ tier) (h' : tier ≤ 5) (room : Nat) (c : Cursor) :
    ReadsAt (anExpression tier) (tiered (primary room) tier) c := by
  have hboth : ∀ c, Tracks (anExpression tier) (Parse.tiered (Parse.primary room) tier) c ∧
      LocalAt (fun room => Parse.tiered (Parse.primary room) tier) room c := by
    refine tier_induction (motive := fun tier => ∀ c,
      Tracks (anExpression tier) (Parse.tiered (Parse.primary room) tier) c ∧
        LocalAt (fun room => Parse.tiered (Parse.primary room) tier) room c) ?_ ?_ h h'
    · exact fun c => ⟨Tracks.primary room c, LocalAt.primary room c⟩
    · intro tier h h' ih c
      have hadvances := fun room => (Advances.primary room).tiered (tier + 1)
      rw [show (fun room => Parse.tiered (Parse.primary room) tier) = _ from
        funext fun room => tiered_eq h h', tiered_eq h h']
      exact ⟨Tracks.chained h h' (hadvances room) (fun c => (ih c).1) c,
        LocalAt.chained tier hadvances (fun c => (ih c).2) c⟩
  exact (hboth c).2.readsAt (hboth c).1

theorem ReadsAt.expression (room : Nat) (c : Cursor) :
    ReadsAt (anExpression 1) (expression (primary room)) c :=
  ReadsAt.tiered (Nat.le_refl 1) (by decide) room c

theorem ReadsAt.statements (room : Nat) (c : Cursor) :
    ReadsAt theStatements (statements (primary room)) c :=
  (LocalAt.statements_primary room c).readsAt (Tracks.statements_primary room c)

/-! ## Where a step stops for lack of room -/

/-- If the step finds the nesting too deep, it does at a token that is asked for behind those that
it has read. -/
def ReportsAt (asked : List Token → Token → Prop) (p : Parse α) (c : Cursor) : Prop :=
  ∀ t c', p c = .error (.nestingTooDeep t) c' →
    ∃ read, c.ahead = read ++ t :: c'.ahead ∧ c'.passed = t :: (read.reverse ++ c.passed) ∧
      asked read t

section

variable {asked asked' : List Token → Token → Prop} {account : Account α} {p : Parse α}
  {f : α → Parse β} {c : Cursor}

theorem ReportsAt.imp (h : ReportsAt asked p c)
    (hasked : ∀ read t rest, c.ahead = read ++ t :: rest → asked read t → asked' read t) :
    ReportsAt asked' p c := by
  intro t c' hrun
  obtain ⟨read, hread, hpassed, ht⟩ := h t c' hrun
  exact ⟨read, hread, hpassed, hasked read t _ hread ht⟩

theorem ReportsAt.pure (a : α) : ReportsAt asked (Pure.pure a) c := by
  rintro t c' ⟨⟩

theorem ReportsAt.bind (hp : ReportsAt asked p c) (hreads : ReadsAt account p c)
    (hf : ∀ a c' read, p c = .ok a c' → account a c'.ahead.head? read →
      ReportsAt (fun more => asked (read ++ more)) (f a) c') : ReportsAt asked (p >>= f) c := by
  intro t c' h
  rw [bind_apply] at h
  cases hrun : p c with
  | error e c₁ =>
    rw [hrun] at h
    cases h
    exact hp t c' hrun
  | ok a c₁ =>
    rw [hrun] at h
    obtain ⟨read, hread, hover, ha⟩ := hreads a c₁ hrun
    obtain ⟨more, hmore, hpassed, ht⟩ := hf a c₁ read hrun ha t c' h
    refine ⟨read ++ more, by rw [hread, hmore, List.append_assoc], ?_, ht⟩
    rw [hpassed, hover]
    simp [Cursor.over]

theorem ReportsAt.map {g : α → β} (h : ReportsAt asked p c) :
    ReportsAt asked (p >>= fun a => Pure.pure (g a)) c := by
  intro t c' hrun
  rw [bind_apply] at hrun
  cases hp : p c <;> rw [hp] at hrun <;> cases hrun
  exact h t c' hp

theorem ReportsAt.acceptAs (meaning : Token → Option α) :
    ReportsAt asked (acceptAs meaning) c := by
  intro t c' h
  unfold Parse.acceptAs at h
  split at h
  · cases h
  · split at h <;> cases h

theorem ReportsAt.expect (kind : TokenKind) : ReportsAt asked (expect kind) c := by
  intro t c' h
  cases hc : c.ahead with
  | nil =>
    rw [expect_nil kind hc] at h
    cases h
  | cons u rest =>
    rw [expect_cons kind hc] at h
    split at h <;> cases h

theorem ReportsAt.nested (h : ∀ c, ReportsAt asked p c) (c : Cursor) :
    ReportsAt asked (nested p) c := by
  intro t c' hrun
  unfold Parse.nested at hrun
  split at hrun <;> cases hrun
  rename_i c₁ hp
  obtain ⟨read, hread, hpassed, ht⟩ := h _ t c₁ hp
  exact ⟨read, hread, hpassed, ht⟩

/-- A token that has to be there comes before what is asked for behind it. -/
theorem ReportsAt.expect_bind {kind : TokenKind} {f : Token → Parse β}
    (hf : ∀ t c', t.kind = kind → ReportsAt (fun more => asked (t :: more)) (f t) c') :
    ReportsAt asked (Parse.expect kind >>= f) c := by
  refine ReportsAt.bind (.expect kind) (.expect kind) ?_
  rintro t c' _ - ⟨rfl, ht⟩
  exact hf t c' ht

/-- So does a token with a meaning, if it is there. -/
theorem ReportsAt.acceptAs_bind {meaning : Token → Option α} {f : Option α → Parse β}
    (hnone : (∀ t, c.ahead.head? = some t → meaning t = none) → ReportsAt asked (f none) c)
    (hsome : ∀ t a c', meaning t = some a →
      ReportsAt (fun more => asked (t :: more)) (f (some a)) c') :
    ReportsAt asked (Parse.acceptAs meaning >>= f) c := by
  intro t c' h
  cases hc : c.ahead with
  | nil =>
    rw [bind_ok (acceptAs_nil meaning hc)] at h
    exact hc ▸ hnone (by simp [hc]) t c' h
  | cons u rest =>
    cases hm : meaning u with
    | none =>
      rw [bind_ok (acceptAs_none hc hm)] at h
      exact hc ▸ hnone (by simp [hc, hm]) t c' h
    | some a =>
      rw [bind_ok (acceptAs_some hc hm)] at h
      obtain ⟨more, hmore, hpassed, ht⟩ := hsome u a _ hm t c' h
      exact ⟨u :: more, by rw [List.cons_append, ← hmore], by simpa using hpassed, ht⟩

theorem ReportsAt.accept_bind {kind : TokenKind} {f : Option Token → Parse β}
    (hnone : (∀ t, c.ahead.head? = some t → t.kind ≠ kind) → ReportsAt asked (f none) c)
    (hsome : ∀ t c', t.kind = kind →
      ReportsAt (fun more => asked (t :: more)) (f (some t)) c') :
    ReportsAt asked (accept [kind] >>= f) c := by
  refine ReportsAt.acceptAs_bind (fun h => hnone fun t ht heq => ?_) fun t u c' hu => ?_
  · simpa [heq] using h t ht
  · obtain ⟨ht, rfl⟩ : t.kind = kind ∧ t = u := by simpa using hu
    exact hsome t c' ht

end

/-! ## The grammar -/

/-- A token is asked for where a phrase of the sort is wanted and the tokens have been read of it,
while so many primary expressions are open. -/
def askedIn (wanted : Wanted) (m : Nat) (read : List Token) (t : Token) : Prop :=
  Asks wanted read t m

section

variable {room : Nat}

theorem ReportsAt.chainFrom {tier : Nat} (htier : 1 ≤ tier) (htier' : tier ≤ 4)
    (hoperand : ∀ c, ReportsAt (askedIn (.expression (tier + 1)) room)
      (tiered (primary room) (tier + 1)) c)
    {ls : List Token} {left : Node} {isOpen : Bool} {c : Cursor}
    (hleft : Derives ls (.expression tier isOpen left))
    (hstops : Stops (tier + 1) isOpen c.ahead.head?) :
    ReportsAt (fun read => askedIn (.expression tier) room (ls ++ read))
      (chainFrom tier (tiered (primary room) (tier + 1)) left) c := by
  have hadvances := (Advances.primary room).tiered (tier + 1)
  rw [chainFrom_eq hadvances]
  -- induction on the tokens ahead: what a round has read is the left operand of the next
  refine ReportsAt.bind (.acceptAs _) (.operator hstops) ?_
  rintro (_ | op) c₁ read hrun₁ hop
  · exact .pure left
  · obtain ⟨o, rfl, hop, rfl, rfl⟩ := hop
    refine ReportsAt.bind ((hoperand c₁).imp fun more t _ _ ht => ?_)
      (.tiered (Nat.le_add_left 1 _) (Nat.succ_le_succ htier') room c₁) ?_
    · exact Asks.right hleft hop ht
    · rintro right c₂ rs hrun₂ ⟨isOpen', hright, hstops'⟩
      have k₁ : c₁.ahead.length ≤ c.ahead.length := Keeps.acceptAs _ _ _ _ hrun₁
      have k₂ : c₂.ahead.length < c₁.ahead.length := hadvances _ _ _ hrun₂
      have hchain := ReportsAt.chainFrom htier htier' hoperand
        (Derives.binary left.position hleft hop hright) hstops'
      simpa using hchain
termination_by c.ahead.length

variable (hprimary : ∀ c, ReportsAt (askedIn (.expression 5) room) (primary room) c)
include hprimary

theorem ReportsAt.tiered {tier : Nat} (htier : 1 ≤ tier) (htier' : tier ≤ 5) (c : Cursor) :
    ReportsAt (askedIn (.expression tier) room) (tiered (primary room) tier) c := by
  revert c
  refine tier_induction (motive := fun tier => ∀ c, ReportsAt (askedIn (.expression tier) room)
    (Parse.tiered (Parse.primary room) tier) c) hprimary ?_ htier htier'
  intro tier h h' ih c
  rw [tiered_eq h h']
  refine ReportsAt.bind ((ih c).imp fun read t _ _ ht => Asks.first h ht)
    (.tiered (Nat.le_add_left 1 tier) (Nat.succ_le_succ h') room c) ?_
  rintro left c₁ ls - ⟨isOpen, hleft, hstops⟩
  exact ReportsAt.chainFrom h h' ih (hleft.looser h) hstops

theorem ReportsAt.expression (c : Cursor) :
    ReportsAt (askedIn (.expression 1) room) (expression (primary room)) c :=
  ReportsAt.tiered hprimary (Nat.le_refl 1) (by decide) c

theorem ReportsAt.statements (c : Cursor) :
    ReportsAt (askedIn .statements room) (statements (primary room)) c := by
  rw [statements_eq (Advances.primary room)]
  refine ReportsAt.bind ((ReportsAt.expression hprimary c).imp fun read t _ _ ht => .statement ht)
    (.expression room c) ?_
  rintro e c₁ es hrun₁ ⟨isOpen, he, -⟩
  refine ReportsAt.bind (.acceptAs _) (.acceptAs _) ?_
  rintro (_ | s) c₂ read hrun₂ hs
  · exact .pure _
  · obtain ⟨rfl, hkind⟩ := meant_accept hs
    have k₁ : c₁.ahead.length < c.ahead.length := (Advances.primary room).expression _ _ _ hrun₁
    have k₂ : c₂.ahead.length ≤ c₁.ahead.length := Keeps.accept _ _ _ _ hrun₂
    refine ReportsAt.bind ((ReportsAt.statements c₂).imp fun read t _ _ ht => ?_)
      (.statements room c₂) fun _ _ _ _ _ => .pure _
    exact Asks.semicolon he hkind ht
termination_by c.ahead.length

theorem ReportsAt.arguments (c : Cursor) :
    ReportsAt (askedIn .arguments room) (arguments (primary room)) c := by
  rw [arguments_eq (Advances.primary room)]
  refine ReportsAt.bind (.acceptAs _) (.acceptAs _) ?_
  rintro (_ | r) c₁ read hrun₁ hr
  · obtain ⟨rfl, hclose⟩ := hr
    refine ReportsAt.bind ((ReportsAt.expression hprimary c₁).imp fun read t rest hc ht => ?_)
      (.expression room c₁) ?_
    · refine Asks.argument (fun u hu heq => ?_) ht
      have hnone := hclose u (by rw [hc, ← hu]; cases read <;> rfl)
      simp [heq] at hnone
    rintro e c₂ es hrun₂ ⟨isOpen, he, -⟩
    refine ReportsAt.bind (.acceptAs _) (.acceptAs _) ?_
    rintro (_ | r) c₃ read hrun₃ hr
    · obtain ⟨rfl, -⟩ := hr
      refine ReportsAt.bind (.expect _) (.expect _) ?_
      rintro s c₄ _ hrun₄ ⟨rfl, hs⟩
      have k₁ : c₁.ahead.length ≤ c.ahead.length := Keeps.accept _ _ _ _ hrun₁
      have k₂ : c₂.ahead.length < c₁.ahead.length := (Advances.primary room).expression _ _ _ hrun₂
      have k₃ : c₃.ahead.length ≤ c₂.ahead.length := Keeps.accept _ _ _ _ hrun₃
      have k₄ : c₄.ahead.length < c₃.ahead.length := Advances.expect _ _ _ _ hrun₄
      refine ((ReportsAt.arguments c₄).imp fun read t _ _ ht => ?_).map
      simpa [askedIn] using Asks.comma he hs ht
    · exact .pure _
  · exact .pure _
termination_by c.ahead.length

/-- What is asked for behind the first token of a primary expression. -/
theorem ReportsAt.userVar {d : Token} (hd : d.kind = .dollar) (c : Cursor) :
    ReportsAt (fun read => askedIn (.expression 5) (room + 1) (d :: read))
      (userVar (primary room) d) c := by
  unfold Parse.userVar
  refine ReportsAt.expect_bind fun x c₁ hx => ?_
  refine ReportsAt.accept_bind (fun _ => ReportsAt.acceptAs_bind (fun _ => .pure _) ?_) ?_
  · intro q op c₂ hq
    refine ((ReportsAt.expression hprimary c₂).imp fun read t _ _ ht => ?_).map
    exact Asks.value hd hx (.inr ⟨op, hq⟩) ht
  · intro q c₂ hq
    refine ((ReportsAt.expression hprimary c₂).imp fun read t _ _ ht => ?_).map
    exact Asks.value hd hx (.inl hq) ht

theorem ReportsAt.ifElse {i : Token} (hi : i.kind = .ifWord) (c : Cursor) :
    ReportsAt (fun read => askedIn (.expression 5) (room + 1) (i :: read))
      (ifElse (primary room) i) c := by
  have hexpr := ReportsAt.expression hprimary
  unfold Parse.ifElse
  refine ReportsAt.expect_bind fun l c₁ hl => ?_
  refine ReportsAt.bind ((hexpr c₁).imp fun read t _ _ ht => Asks.cond hi hl ht)
    (.expression room c₁) ?_
  rintro cond c₂ cs - ⟨openCond, hcond, -⟩
  refine ReportsAt.expect_bind fun r c₃ hr => ?_
  refine ReportsAt.bind ((hexpr c₃).imp fun read t _ _ ht => Asks.yes hi hl hcond hr ht)
    (.expression room c₃) ?_
  rintro yes c₄ ys - ⟨openYes, hyes, -⟩
  refine ReportsAt.expect_bind fun s c₅ hs => ?_
  exact ((hexpr c₅).imp fun read t _ _ ht => Asks.no hi hl hcond hr hyes hs ht).map

theorem ReportsAt.primaryAfter (u : Token) (c : Cursor) :
    ReportsAt (fun read => askedIn (.expression 5) (room + 1) (u :: read))
      (primaryAfter (primary room) u) c := by
  unfold Parse.primaryAfter
  split
  case h_1 => exact .pure _
  case h_2 => exact .pure _
  case h_3 => exact .pure _
  case h_4 hkind =>
    exact ((hprimary c).imp fun read t _ _ ht => Asks.operand (.inl hkind) ht).map
  case h_5 hkind =>
    exact ((hprimary c).imp fun read t _ _ ht => Asks.operand (.inr hkind) ht).map
  case h_6 hkind =>
    refine ReportsAt.accept_bind (fun _ => .pure _) fun l c₁ hl => ?_
    exact ((ReportsAt.arguments hprimary c₁).imp fun read t _ _ ht => Asks.call hkind hl ht).map
  case h_7 hkind => exact ReportsAt.userVar hprimary hkind c
  case h_8 hkind =>
    refine ReportsAt.bind
      ((ReportsAt.statements hprimary c).imp fun read t _ _ ht => Asks.block hkind ht)
      (.statements room c) fun _ _ _ _ _ => ?_
    exact ReportsAt.expect_bind fun _ _ _ => .pure _
  case h_9 hkind =>
    refine ReportsAt.bind
      ((ReportsAt.expression hprimary c).imp fun read t _ _ ht => Asks.group hkind ht)
      (.expression room c) fun _ _ _ _ _ => ?_
    exact ReportsAt.expect_bind fun _ _ _ => .pure _
  case h_10 hkind => exact ReportsAt.ifElse hprimary hkind c
  case h_11 => rintro t c' ⟨⟩

end

/-- Where a primary expression lacks room, one is asked for while all of the room is taken. -/
theorem ReportsAt.primary (room : Nat) (c : Cursor) :
    ReportsAt (askedIn (.expression 5) room) (primary room) c := by
  induction room generalizing c with
  | zero =>
    intro t c' h
    cases hc : c.ahead with
    | nil =>
      rw [primary_nil 0 hc] at h
      cases h
    | cons u rest =>
      rw [primary_zero hc] at h
      cases h
      exact ⟨[], rfl, rfl, .here t⟩
  | succ room ih =>
    intro t c' h
    cases hc : c.ahead with
    | nil =>
      rw [primary_nil (room + 1) hc] at h
      cases h
    | cons u rest =>
      rw [primary_succ hc] at h
      obtain ⟨read, hread, hpassed, ht⟩ :=
        ReportsAt.nested (ReportsAt.primaryAfter ih u) (c.over [u] rest) t c' h
      refine ⟨u :: read, congrArg (u :: ·) hread, ?_, ht⟩
      rw [hpassed]
      simp [Cursor.over]

end ExprFront.Parse
