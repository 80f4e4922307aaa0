import ExprFront.Parse.Grammar

/-!
# Progress of parse steps

No step moves its cursor back, and a step that reads an expression passes over at least one token.
A loop is given one round for each token ahead, so it never runs out of rounds: it satisfies the
equation of the loop without a bound, and later proofs unfold that equation only.
-/

namespace ExprFront.Parse

variable {α β : Type}

/-! ## Running a step -/

theorem bind_apply (p : Parse α) (f : α → Parse β) (c : Cursor) :
    (p >>= f) c = match p c with
      | .ok a c' => f a c'
      | .error e c' => .error e c' := by
  show EStateM.bind p f c = _
  unfold EStateM.bind
  cases p c <;> rfl

theorem bind_ok {p : Parse α} {f : α → Parse β} {c c' : Cursor} {a : α} (h : p c = .ok a c') :
    (p >>= f) c = f a c' := by
  rw [bind_apply, h]

theorem bind_error {p : Parse α} {f : α → Parse β} {c c' : Cursor} {e : ParseError}
    (h : p c = .error e c') : (p >>= f) c = .error e c' := by
  rw [bind_apply, h]

/-- A sequence that succeeds is two steps that do. -/
theorem exists_of_bind_ok {p : Parse α} {f : α → Parse β} {c c' : Cursor} {b : β}
    (h : (p >>= f) c = .ok b c') : ∃ a c₁, p c = .ok a c₁ ∧ f a c₁ = .ok b c' := by
  rw [bind_apply] at h
  cases hp : p c with
  | error e c₁ =>
    rw [hp] at h
    cases h
  | ok a c₁ =>
    rw [hp] at h
    exact ⟨a, c₁, rfl, h⟩

@[simp] theorem bounded_apply (step : List Token → Parse α) (c : Cursor) :
    bounded step c = step c.ahead c := rfl

theorem advance_nil (kinds : List TokenKind) {c : Cursor} (h : c.ahead = []) :
    advance kinds c = .error (c.endError kinds) c := by
  unfold advance
  rw [h]

theorem advance_cons (kinds : List TokenKind) {c : Cursor} {t : Token} {rest : List Token}
    (h : c.ahead = t :: rest) :
    advance kinds c = .ok t { c with passed := t :: c.passed, ahead := rest } := by
  unfold advance
  rw [h]

theorem acceptAs_nil (meaning : Token → Option α) {c : Cursor} (h : c.ahead = []) :
    acceptAs meaning c = .ok none c := by
  unfold acceptAs
  rw [h]

theorem acceptAs_none {meaning : Token → Option α} {c : Cursor} {t : Token} {rest : List Token}
    (h : c.ahead = t :: rest) (hm : meaning t = none) : acceptAs meaning c = .ok none c := by
  unfold acceptAs
  rw [h]
  simp only [hm]

theorem acceptAs_some {meaning : Token → Option α} {c : Cursor} {t : Token} {rest : List Token}
    {a : α} (h : c.ahead = t :: rest) (hm : meaning t = some a) :
    acceptAs meaning c = .ok (some a) { c with passed := t :: c.passed, ahead := rest } := by
  unfold acceptAs
  rw [h]
  simp only [hm]

theorem expect_nil (kind : TokenKind) {c : Cursor} (h : c.ahead = []) :
    expect kind c = .error (c.endError [kind]) c :=
  bind_error (advance_nil [kind] h)

theorem expect_cons (kind : TokenKind) {c : Cursor} {t : Token} {rest : List Token}
    (h : c.ahead = t :: rest) :
    expect kind c = if t.kind = kind
      then .ok t { c with passed := t :: c.passed, ahead := rest }
      else .error (.unexpectedToken t [kind]) { c with passed := t :: c.passed, ahead := rest } := by
  unfold expect
  rw [bind_ok (advance_cons [kind] h)]
  split <;> rfl

/-- Whatever the room, no primary expression begins at the end of the tokens. -/
theorem primary_nil (room : Nat) {c : Cursor} (h : c.ahead = []) :
    primary room c = .error (c.endError TokenKind.primaryStart) c := by
  cases room with
  | zero => exact bind_error (advance_nil _ h)
  | succ room => exact bind_error (advance_nil _ h)

theorem primary_zero {c : Cursor} {t : Token} {rest : List Token} (h : c.ahead = t :: rest) :
    primary 0 c = .error (.nestingTooDeep t)
      { passed := t :: c.passed, ahead := rest, depth := c.depth + 1 } :=
  bind_ok (advance_cons _ h)

theorem primaryAfter_of_notMem (p : Parse Node) {t : Token}
    (h : t.kind ∉ TokenKind.primaryStart) :
    primaryAfter p t = throw (.unexpectedToken t TokenKind.primaryStart) := by
  unfold primaryAfter
  split <;> simp_all [TokenKind.primaryStart]

/-! ## Steps that move on -/

/-- Every success of the step passes over at least one token. -/
def Advances (p : Parse α) : Prop :=
  ∀ c a c', p c = .ok a c' → c'.ahead.length < c.ahead.length

/-- No success of the step moves the cursor back. -/
def Keeps (p : Parse α) : Prop :=
  ∀ c a c', p c = .ok a c' → c'.ahead.length ≤ c.ahead.length

theorem Advances.keeps {p : Parse α} (h : Advances p) : Keeps p :=
  fun c a c' hc => Nat.le_of_lt (h c a c' hc)

theorem Keeps.pure (a : α) : Keeps (Pure.pure a : Parse α) := by
  rintro c a c' ⟨⟩
  exact Nat.le_refl _

theorem Keeps.throw (e : ParseError) : Keeps (MonadExcept.throw e : Parse α) := by
  rintro c a c' ⟨⟩

theorem Keeps.bind {p : Parse α} {f : α → Parse β} (hp : Keeps p) (hf : ∀ a, Keeps (f a)) :
    Keeps (p >>= f) := by
  intro c b c'' h
  rw [bind_apply] at h
  split at h
  · rename_i a c' hc
    exact Nat.le_trans (hf a c' b c'' h) (hp c a c' hc)
  · cases h

theorem Advances.bind {p : Parse α} {f : α → Parse β} (hp : Advances p) (hf : ∀ a, Keeps (f a)) :
    Advances (p >>= f) := by
  intro c b c'' h
  rw [bind_apply] at h
  split at h
  · rename_i a c' hc
    exact Nat.lt_of_le_of_lt (hf a c' b c'' h) (hp c a c' hc)
  · cases h

theorem Advances.advance (kinds : List TokenKind) : Advances (advance kinds) := by
  intro c t c' h
  cases hc : c.ahead with
  | nil =>
    rw [advance_nil kinds hc] at h
    cases h
  | cons u rest =>
    rw [advance_cons kinds hc] at h
    cases h
    simp

theorem Keeps.acceptAs (meaning : Token → Option α) : Keeps (acceptAs meaning) := by
  intro c a c' h
  cases hc : c.ahead with
  | nil =>
    rw [acceptAs_nil meaning hc] at h
    cases h
    simp [hc]
  | cons t rest =>
    cases hm : meaning t with
    | none =>
      rw [acceptAs_none hc hm] at h
      cases h
      simp [hc]
    | some b =>
      rw [acceptAs_some hc hm] at h
      cases h
      simp

theorem Keeps.accept (kinds : List TokenKind) : Keeps (accept kinds) :=
  Keeps.acceptAs _

theorem Advances.expect (kind : TokenKind) : Advances (expect kind) := by
  unfold Parse.expect
  apply (Advances.advance [kind]).bind
  intro t
  split
  · exact Keeps.pure t
  · exact Keeps.throw _

theorem Keeps.nested {p : Parse α} (h : Keeps p) : Keeps (nested p) := by
  intro c a c' hc
  unfold Parse.nested at hc
  split at hc
  · rename_i b c'' hp
    cases hc
    exact h { c with depth := c.depth + 1 } a c'' hp
  · cases hc

theorem Keeps.chain {tier : Nat} {operand : Parse Node} (h : Keeps operand) (rounds : List Token)
    (left : Node) : Keeps (chain tier operand rounds left) := by
  induction rounds generalizing left with
  | nil => exact Keeps.pure left
  | cons t rounds ih =>
    unfold Parse.chain
    apply (Keeps.acceptAs _).bind
    intro op
    rcases op with _ | op
    · exact Keeps.pure left
    · exact h.bind fun right => ih _

theorem Advances.chained {tier : Nat} {operand : Parse Node} (h : Advances operand) :
    Advances (chained tier operand) := by
  apply h.bind
  intro left c tree c' hc
  exact Keeps.chain h.keeps c.ahead left c tree c' hc

theorem Advances.expression {primary : Parse Node} (h : Advances primary) :
    Advances (expression primary) :=
  h.chained.chained.chained.chained

theorem Keeps.statementRounds {primary : Parse Node} (h : Advances primary)
    (rounds : List Token) : Keeps (statementRounds primary rounds) := by
  induction rounds with
  | nil => exact h.expression.keeps.bind fun e => Keeps.pure _
  | cons t rounds ih =>
    unfold Parse.statementRounds
    apply h.expression.keeps.bind
    intro e
    apply (Keeps.accept _).bind
    intro s
    rcases s with _ | s
    · exact Keeps.pure _
    · exact ih.bind fun _ => Keeps.pure _

theorem Keeps.argumentRounds {primary : Parse Node} (h : Advances primary)
    (rounds : List Token) : Keeps (argumentRounds primary rounds) := by
  induction rounds with
  | nil => exact h.expression.keeps.bind fun e => Keeps.pure _
  | cons t rounds ih =>
    unfold Parse.argumentRounds
    apply (Keeps.accept _).bind
    intro r
    rcases r with _ | r
    · apply h.expression.keeps.bind
      intro e
      apply (Keeps.accept _).bind
      intro r
      rcases r with _ | r
      · exact (Advances.expect _).keeps.bind fun _ => ih.bind fun es => Keeps.pure _
      · exact Keeps.pure _
    · exact Keeps.pure _

theorem Keeps.statements {primary : Parse Node} (h : Advances primary) :
    Keeps (statements primary) :=
  fun c a c' hc => Keeps.statementRounds h c.ahead c a c' hc

theorem Keeps.arguments {primary : Parse Node} (h : Advances primary) :
    Keeps (arguments primary) :=
  fun c a c' hc => Keeps.argumentRounds h c.ahead c a c' hc

theorem Keeps.userVar {primary : Parse Node} (h : Advances primary) (dollar : Token) :
    Keeps (userVar primary dollar) := by
  unfold Parse.userVar
  apply (Advances.expect _).keeps.bind
  intro x
  apply (Keeps.accept _).bind
  intro q
  rcases q with _ | q
  · apply (Keeps.acceptAs _).bind
    intro op
    rcases op with _ | op
    · exact Keeps.pure _
    · exact h.expression.keeps.bind fun _ => Keeps.pure _
  · exact h.expression.keeps.bind fun _ => Keeps.pure _

theorem Keeps.ifElse {primary : Parse Node} (h : Advances primary) (word : Token) :
    Keeps (ifElse primary word) := by
  have he := h.expression.keeps
  unfold Parse.ifElse
  refine (Advances.expect _).keeps.bind fun _ => he.bind fun cond => ?_
  refine (Advances.expect _).keeps.bind fun _ => he.bind fun yes => ?_
  exact (Advances.expect _).keeps.bind fun _ => he.bind fun no => Keeps.pure _

theorem Keeps.primaryAfter {primary : Parse Node} (h : Advances primary) (t : Token) :
    Keeps (primaryAfter primary t) := by
  unfold Parse.primaryAfter
  split
  case h_1 => exact Keeps.pure _
  case h_2 => exact Keeps.pure _
  case h_3 => exact Keeps.pure _
  case h_4 => exact h.keeps.bind fun _ => Keeps.pure _
  case h_5 => exact h.keeps.bind fun _ => Keeps.pure _
  case h_6 =>
    apply (Keeps.accept _).bind
    intro l
    rcases l with _ | l
    · exact Keeps.pure _
    · exact (Keeps.arguments h).bind fun _ => Keeps.pure _
  case h_7 => exact Keeps.userVar h t
  case h_8 =>
    apply (Keeps.statements h).bind
    rintro ⟨exprs, ret⟩
    exact (Advances.expect _).keeps.bind fun _ => Keeps.pure _
  case h_9 =>
    refine h.expression.keeps.bind fun e => ?_
    exact (Advances.expect _).keeps.bind fun _ => Keeps.pure _
  case h_10 => exact Keeps.ifElse h t
  case h_11 => exact Keeps.throw _

theorem Advances.primary (room : Nat) : Advances (primary room) := by
  induction room with
  | zero =>
    unfold Parse.primary
    apply (Advances.advance _).bind
    intro t c a c' h
    cases h
  | succ room ih =>
    unfold Parse.primary
    exact (Advances.advance _).bind fun t => (Keeps.primaryAfter ih t).nested

/-! ## Loops without a bound -/

/-- A step that needs a token fails where there is none. -/
theorem Advances.ne_ok {p : Parse α} (h : Advances p) {c : Cursor} (hc : c.ahead = []) (a : α)
    (c' : Cursor) : p c ≠ .ok a c' := by
  intro hp
  have hlt := h c a c' hp
  simp [hc] at hlt

theorem bind_congr {p : Parse α} {f g : α → Parse β} {c : Cursor}
    (h : ∀ a c', p c = .ok a c' → f a c' = g a c') : (p >>= f) c = (p >>= g) c := by
  rw [bind_apply, bind_apply]
  cases hp : p c with
  | error e c' => rfl
  | ok a c' => exact h a c' hp

/-- The body of a loop, given the rest of the loop, goes on with it only where fewer tokens are
ahead. -/
def Contracts (body : (α → Parse β) → α → Parse β) : Prop :=
  ∀ k k' a c, (∀ a' c', c'.ahead.length < c.ahead.length → k a' c' = k' a' c') →
    body k a c = body k' a c

section

variable {body : (α → Parse β) → α → Parse β}

/-- Where no token is ahead, the loop never comes round again. -/
theorem Contracts.at_end (h : Contracts body) {step : List Token → α → Parse β}
    (hnil : ∀ a c, c.ahead = [] → step [] a c = body (step []) a c)
    (hcons : ∀ t rounds a, step (t :: rounds) a = body (step rounds) a)
    (k : α → Parse β) (rounds : List Token) (a : α) {c : Cursor} (hc : c.ahead = []) :
    step rounds a c = body k a c := by
  have hstop : ∀ k', body k' a c = body k a c :=
    fun k' => h k' k a c fun a' c' hlt => by simp [hc] at hlt
  cases rounds with
  | nil => rw [hnil a c hc, hstop]
  | cons t rounds => rw [hcons, hstop]

/-- Rounds beyond the tokens ahead are never used. -/
theorem Contracts.rounds (h : Contracts body) {step : List Token → α → Parse β}
    (hnil : ∀ a c, c.ahead = [] → step [] a c = body (step []) a c)
    (hcons : ∀ t rounds a, step (t :: rounds) a = body (step rounds) a)
    {rounds rounds' : List Token} {a : α} {c : Cursor}
    (hr : c.ahead.length ≤ rounds.length) (hr' : c.ahead.length ≤ rounds'.length) :
    step rounds a c = step rounds' a c := by
  induction rounds generalizing rounds' a c with
  | nil =>
    have hc : c.ahead = [] := List.length_eq_zero_iff.1 (Nat.le_zero.1 hr)
    rw [h.at_end hnil hcons (step []) [] a hc, h.at_end hnil hcons (step []) rounds' a hc]
  | cons t rounds ih =>
    cases rounds' with
    | nil =>
      have hc : c.ahead = [] := List.length_eq_zero_iff.1 (Nat.le_zero.1 hr')
      rw [h.at_end hnil hcons (step []) [] a hc, h.at_end hnil hcons (step []) (t :: rounds) a hc]
    | cons t' rounds' =>
      rw [hcons, hcons]
      apply h
      -- where the loop comes round again a token has gone, and so has a round
      intro a' c' hlt
      simp only [List.length_cons] at hr hr'
      exact ih (by omega) (by omega)

/-- A loop with a round for each token ahead is its body, going on with the loop. -/
theorem loop_eq_body (body : (α → Parse β) → α → Parse β) (step : List Token → α → Parse β)
    (h : Contracts body)
    (hnil : ∀ a c, c.ahead = [] → step [] a c = body (step []) a c)
    (hcons : ∀ t rounds a, step (t :: rounds) a = body (step rounds) a) (a : α) :
    bounded (fun rounds => step rounds a) = body (fun a' => bounded fun rounds => step rounds a') a := by
  funext c
  rw [bounded_apply]
  cases hc : c.ahead with
  | nil => exact h.at_end hnil hcons _ [] a hc
  | cons t rest =>
    rw [hcons]
    apply h
    intro a' c' hlt
    rw [bounded_apply]
    simp only [hc, List.length_cons] at hlt
    exact h.rounds hnil hcons (by omega) (Nat.le_refl _)

end

/-- Goes on with a chain of one tier for as long as there are operators of the tier. -/
def chainFrom (tier : Nat) (operand : Parse Node) (left : Node) : Parse Node :=
  bounded fun rounds => chain tier operand rounds left

theorem chainFrom_eq {tier : Nat} {operand : Parse Node} (h : Advances operand) (left : Node) :
    chainFrom tier operand left = (do
      match ← operator tier with
      | none => pure left
      | some op =>
        let right ← operand
        chainFrom tier operand (.binary left.position op left right)) := by
  -- the left operand is what one round hands on to the next
  refine loop_eq_body
    (fun next left => do
      match ← operator tier with
      | none => pure left
      | some op =>
        let right ← operand
        next (.binary left.position op left right))
    (fun rounds left => chain tier operand rounds left) ?_ ?_ (fun t rounds a => rfl) left
  · intro k k' left c hk
    apply bind_congr
    intro op c₁ h₁
    rcases op with _ | op
    · rfl
    · apply bind_congr
      intro right c₂ h₂
      have k₁ : c₁.ahead.length ≤ c.ahead.length := Keeps.acceptAs _ _ _ _ h₁
      exact hk _ _ (Nat.lt_of_lt_of_le (h _ _ _ h₂) k₁)
  · intro left c hc
    have hop : operator tier c = .ok none c := acceptAs_nil _ hc
    rw [bind_ok hop]
    rfl

theorem statements_eq {primary : Parse Node} (h : Advances primary) :
    statements primary = (do
      let e ← expression primary
      match ← accept [.semicolon] with
      | none => pure ([], e)
      | some _ =>
        let (es, last) ← statements primary
        pure (e :: es, last)) := by
  -- nothing is handed on; the last round is not reached, as an expression needs a token
  refine loop_eq_body
    (fun next (_ : Unit) => do
      let e ← expression primary
      match ← accept [.semicolon] with
      | none => pure ([], e)
      | some _ =>
        let (es, last) ← next ()
        pure (e :: es, last))
    (fun rounds _ => statementRounds primary rounds) ?_ ?_ (fun t rounds a => rfl) ()
  · intro k k' _ c hk
    apply bind_congr
    intro e c₁ h₁
    apply bind_congr
    intro s c₂ h₂
    rcases s with _ | s
    · rfl
    · have k₂ : c₂.ahead.length ≤ c₁.ahead.length := Keeps.accept _ _ _ _ h₂
      have heq := hk () c₂ (Nat.lt_of_le_of_lt k₂ (h.expression _ _ _ h₁))
      simp only [bind_apply, heq]
  · intro _ c hc
    apply bind_congr
    intro e c₁ h₁
    exact absurd h₁ (h.expression.ne_ok hc e c₁)

theorem arguments_eq {primary : Parse Node} (h : Advances primary) :
    arguments primary = (do
      match ← accept [.rightParen] with
      | some _ => pure []
      | none =>
        let e ← expression primary
        match ← accept [.rightParen] with
        | some _ => pure [e]
        | none =>
          let _ ← expect .comma
          let es ← arguments primary
          pure (e :: es)) := by
  refine loop_eq_body
    (fun next (_ : Unit) => do
      match ← accept [.rightParen] with
      | some _ => pure []
      | none =>
        let e ← expression primary
        match ← accept [.rightParen] with
        | some _ => pure [e]
        | none =>
          let _ ← expect .comma
          let es ← next ()
          pure (e :: es))
    (fun rounds _ => argumentRounds primary rounds) ?_ ?_ (fun t rounds a => rfl) ()
  · intro k k' _ c hk
    apply bind_congr
    intro r c₁ h₁
    rcases r with _ | r
    · apply bind_congr
      intro e c₂ h₂
      apply bind_congr
      intro r c₃ h₃
      rcases r with _ | r
      · apply bind_congr
        intro s c₄ h₄
        have k₁ : c₁.ahead.length ≤ c.ahead.length := Keeps.accept _ _ _ _ h₁
        have k₂ : c₂.ahead.length < c₁.ahead.length := h.expression _ _ _ h₂
        have k₃ : c₃.ahead.length ≤ c₂.ahead.length := Keeps.accept _ _ _ _ h₃
        have k₄ : c₄.ahead.length < c₃.ahead.length := Advances.expect _ _ _ _ h₄
        simp only [bind_apply, hk () c₄ (by omega)]
      · rfl
    · rfl
  · intro _ c hc
    have hnone : accept [.rightParen] c = .ok none c := acceptAs_nil _ hc
    rw [bind_ok hnone]
    apply bind_congr
    intro e c₁ h₁
    exact absurd h₁ (h.expression.ne_ok hc e c₁)

/-! ## Tiers -/

/-- The step for the expressions of a tier, from 1 for equality to 4 for products; beyond are the
primary expressions alone. -/
def tiered (primary : Parse Node) : Nat → Parse Node
  | 1 => equality primary
  | 2 => relational primary
  | 3 => additive primary
  | 4 => multiplicative primary
  | _ => primary

theorem tiered_eq {primary : Parse Node} {tier : Nat} (h : 1 ≤ tier) (h' : tier ≤ 4) :
    tiered primary tier = tiered primary (tier + 1) >>= chainFrom tier (tiered primary (tier + 1)) := by
  match tier, h, h' with
  | 1, _, _ => rfl
  | 2, _, _ => rfl
  | 3, _, _ => rfl
  | 4, _, _ => rfl

theorem Advances.tiered {primary : Parse Node} (h : Advances primary) (tier : Nat) :
    Advances (tiered primary tier) := by
  unfold Parse.tiered
  split
  · exact h.chained.chained.chained.chained
  · exact h.chained.chained.chained
  · exact h.chained.chained
  · exact h.chained
  · exact h

end ExprFront.Parse
