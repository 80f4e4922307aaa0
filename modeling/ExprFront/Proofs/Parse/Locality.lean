import ExprFront.Proofs.Parse.Progress

/-!
# What a parse step depends on

A step that succeeds has read some tokens and looked at no more than the one behind them; a step
that fails at a token has looked at nothing behind that token. Whatever came before, whatever
follows, and however much more room for nesting there is, it does the same again. This is stated for
families of steps, one for each amount of room, since a step has no need of more room than it reads
tokens.
-/

namespace ExprFront

/-- The cursor after passing over some tokens, with the given ones ahead. -/
def Cursor.over (c : Cursor) (read rest : List Token) : Cursor :=
  { c with passed := read.reverse ++ c.passed, ahead := rest }

@[simp] theorem Cursor.over_over (c : Cursor) (read read' rest rest' : List Token) :
    (c.over read rest).over read' rest' = c.over (read ++ read') rest' := by
  simp [Cursor.over]

/-- Where the tokens end does not depend on where the cursor stands. -/
theorem Cursor.endPosition_over {c : Cursor} (read rest : List Token)
    (h : c.ahead = read ++ rest) :
    (c.over read rest).endPosition = c.endPosition := by
  have hlast : (c.over read rest).last? = c.last? := by
    simp only [last?, Cursor.over, h]
    cases hrest : rest.getLast? with
    | some t => simp [List.getLast?_append, hrest]
    -- with nothing ahead the last token is one that has been passed
    | none =>
      have hnil : rest = [] := List.getLast?_eq_none_iff.1 hrest
      cases hread : read.getLast? with
      | some t => simp [hnil, hread, List.head?_append, List.head?_reverse]
      | none => simp [hnil, List.getLast?_eq_none_iff.1 hread]
  unfold endPosition
  rw [hlast]

end ExprFront

namespace ExprFront.Parse

variable {α β : Type}

/-! ## Outcomes that the tokens alone decide -/

/-- With room for the tokens, the step reads them with this result wherever this token, or the end,
comes next. -/
def Accepts (p : Nat → Parse α) (read : List Token) (next : Option Token) (a : α) : Prop :=
  ∀ room c rest, read.length ≤ room → c.ahead = read ++ rest → rest.head? = next →
    p room c = .ok a (c.over read rest)

/-- With room for the tokens, the step reads them and stops at the token behind them, having
expected others. -/
def Rejects (p : Nat → Parse α) (read : List Token) (t : Token) (expected : List TokenKind) :
    Prop :=
  ∀ room c rest, read.length < room → c.ahead = read ++ t :: rest →
    p room c = .error (.unexpectedToken t expected) (c.over (read ++ [t]) rest)

/-- With room for the tokens, the step reads them and needs more where they end. -/
def Starves (p : Nat → Parse α) (read : List Token) (expected : List TokenKind) : Prop :=
  ∀ room c, read.length ≤ room → c.ahead = read →
    p room c = .error (.unexpectedEnd c.endPosition expected) (c.over read [])

section

variable {p : Nat → Parse α} {f : Nat → α → Parse β} {read read' : List Token} {t : Token}
  {next : Option Token} {a : α} {b : β} {expected : List TokenKind}

theorem Accepts.pure (next : Option Token) (a : α) : Accepts (fun _ => Pure.pure a) [] next a := by
  intro room c rest _ hc _
  simp only [List.nil_append] at hc
  subst hc
  rfl

theorem Accepts.bind (hp : Accepts p read (read'.head?.or next) a)
    (hf : Accepts (fun room => f room a) read' next b) :
    Accepts (fun room => p room >>= f room) (read ++ read') next b := by
  intro room c rest hroom hc hnext
  simp only [List.length_append] at hroom
  rw [List.append_assoc] at hc
  have h₁ : p room c = .ok a (c.over read (read' ++ rest)) :=
    hp room c _ (by omega) hc (by rw [List.head?_append, hnext])
  have h₂ : f room a (c.over read (read' ++ rest)) = .ok b _ :=
    hf room _ rest (by omega) rfl hnext
  rw [Cursor.over_over] at h₂
  exact (bind_ok h₁).trans h₂

theorem Rejects.bind (hp : Rejects p read t expected) :
    Rejects (fun room => p room >>= f room) read t expected :=
  fun room c rest hroom hc => bind_error (hp room c rest hroom hc)

theorem Accepts.rejects_bind (hp : Accepts p read (read'.head?.or (some t)) a)
    (hf : Rejects (fun room => f room a) read' t expected) :
    Rejects (fun room => p room >>= f room) (read ++ read') t expected := by
  intro room c rest hroom hc
  simp only [List.length_append] at hroom
  rw [List.append_assoc] at hc
  have h₁ : p room c = .ok a (c.over read (read' ++ t :: rest)) :=
    hp room c _ (by omega) hc (by rw [List.head?_append, List.head?_cons])
  have h₂ : f room a (c.over read (read' ++ t :: rest)) =
      .error (.unexpectedToken t expected) _ := hf room _ rest (by omega) rfl
  rw [Cursor.over_over, ← List.append_assoc] at h₂
  exact (bind_ok h₁).trans h₂

theorem Starves.bind (hp : Starves p read expected) :
    Starves (fun room => p room >>= f room) read expected :=
  fun room c hroom hc => bind_error (hp room c hroom hc)

theorem Accepts.starves_bind (hp : Accepts p read read'.head? a)
    (hf : Starves (fun room => f room a) read' expected) :
    Starves (fun room => p room >>= f room) (read ++ read') expected := by
  intro room c hroom hc
  simp only [List.length_append] at hroom
  have h₁ : p room c = .ok a (c.over read read') := hp room c _ (by omega) hc rfl
  have h₂ : f room a (c.over read read') =
      .error (.unexpectedEnd (c.over read read').endPosition expected) _ :=
    hf room _ (by omega) rfl
  rw [Cursor.over_over, Cursor.endPosition_over _ _ hc] at h₂
  exact (bind_ok h₁).trans h₂

end

/-! ## Local steps -/

/-- The outcome of a step is decided by the tokens read, and one more for a success. Nothing is said
of a lack of room. -/
def Explains (p : Nat → Parse α) (c : Cursor) : EStateM.Result ParseError Cursor α → Prop
  | .ok a c' => ∃ read, c.ahead = read ++ c'.ahead ∧ c' = c.over read c'.ahead ∧
      Accepts p read c'.ahead.head? a
  | .error (.unexpectedToken t expected) c' => ∃ read, c.ahead = read ++ t :: c'.ahead ∧
      c' = c.over (read ++ [t]) c'.ahead ∧ Rejects p read t expected
  | .error (.unexpectedEnd position expected) c' => position = c.endPosition ∧
      c' = c.over c.ahead [] ∧ Starves p c.ahead expected
  | .error (.nestingTooDeep _) _ => True

/-- The step is decided in this way at a cursor, with some room. -/
def LocalAt (p : Nat → Parse α) (room : Nat) (c : Cursor) : Prop :=
  Explains p c (p room c)

section

variable {p : Nat → Parse α} {f : Nat → α → Parse β} {room : Nat} {c : Cursor}

theorem LocalAt.of_accepts {a : α} (read rest : List Token) (hc : c.ahead = read ++ rest)
    (hrun : p room c = .ok a (c.over read rest)) (h : Accepts p read rest.head? a) :
    LocalAt p room c := by
  unfold LocalAt
  rw [hrun]
  exact ⟨read, hc, rfl, h⟩

theorem LocalAt.of_rejects {t : Token} {expected : List TokenKind} (read rest : List Token)
    (hc : c.ahead = read ++ t :: rest)
    (hrun : p room c = .error (.unexpectedToken t expected) (c.over (read ++ [t]) rest))
    (h : Rejects p read t expected) : LocalAt p room c := by
  unfold LocalAt
  rw [hrun]
  exact ⟨read, hc, rfl, h⟩

theorem LocalAt.of_starves {expected : List TokenKind} (hc : c.ahead = [])
    (hrun : p room c = .error (c.endError expected) c) (h : Starves p [] expected) :
    LocalAt p room c := by
  unfold LocalAt
  rw [hrun]
  obtain ⟨passed, ahead, depth⟩ := c
  cases hc
  exact ⟨rfl, rfl, h⟩

/-- Where the room is not what is lacking, more of it changes nothing. -/
theorem LocalAt.eq_of_length_lt (h : LocalAt p room c)
    (hroom : ∀ t c', p room c ≠ .error (.nestingTooDeep t) c') {room' : Nat}
    (henough : c.ahead.length < room') : p room c = p room' c := by
  unfold LocalAt at h
  cases hrun : p room c with
  | ok a c' =>
    rw [hrun] at h
    obtain ⟨read, hc, hover, ha⟩ := h
    have hread : read.length ≤ c.ahead.length := by simp [hc]
    rw [ha room' c c'.ahead (by omega) hc rfl, ← hover]
  | error e c' =>
    rw [hrun] at h
    cases e with
    | unexpectedToken t expected =>
      obtain ⟨read, hc, hover, hr⟩ := h
      have hread : read.length < c.ahead.length := by simp [hc]
      rw [hr room' c c'.ahead (by omega) hc, ← hover]
    | unexpectedEnd position expected =>
      obtain ⟨hposition, hover, hs⟩ := h
      rw [hs room' c (Nat.le_of_lt henough) rfl, hposition, hover]
    | nestingTooDeep t => exact absurd hrun (hroom t c')

theorem LocalAt.bind (hp : LocalAt p room c)
    (hf : ∀ a c', p room c = .ok a c' → LocalAt (fun room => f room a) room c') :
    LocalAt (fun room => p room >>= f room) room c := by
  unfold LocalAt at hp ⊢
  show Explains _ c ((p room >>= f room) c)
  rw [bind_apply]
  cases hrun : p room c with
  | error e c' =>
    rw [hrun] at hp
    cases e with
    | unexpectedToken t expected =>
      obtain ⟨read, hc, hover, h⟩ := hp
      exact ⟨read, hc, hover, h.bind⟩
    | unexpectedEnd position expected =>
      obtain ⟨hposition, hover, h⟩ := hp
      exact ⟨hposition, hover, h.bind⟩
    | nestingTooDeep t => trivial
  | ok a c' =>
    rw [hrun] at hp
    obtain ⟨read, hc, hover, h⟩ := hp
    have hnext : Explains (fun room => f room a) c' (f room a c') := hf a c' hrun
    show Explains _ c (f room a c')
    cases hrun' : f room a c' with
    | error e c'' =>
      rw [hrun'] at hnext
      cases e with
      | unexpectedToken t expected =>
        obtain ⟨read', hc', hover', h'⟩ := hnext
        rw [hover, Cursor.over_over, ← List.append_assoc] at hover'
        rw [hc', List.head?_append, List.head?_cons] at h
        exact ⟨read ++ read', by rw [hc, hc', List.append_assoc], hover', h.rejects_bind h'⟩
      | unexpectedEnd position expected =>
        obtain ⟨hposition, hover', h'⟩ := hnext
        have hend : (c.over read c'.ahead).endPosition = c.endPosition :=
          Cursor.endPosition_over read c'.ahead hc
        have hall : (c.over read c'.ahead).over c'.ahead [] = c.over c.ahead [] := by
          rw [Cursor.over_over, hc]
        rw [← hover] at hend hall
        refine ⟨hposition.trans hend, hover'.trans hall, ?_⟩
        rw [hc]
        exact h.starves_bind h'
      | nestingTooDeep t => trivial
    | ok b c'' =>
      rw [hrun'] at hnext
      obtain ⟨read', hc', hover', h'⟩ := hnext
      rw [hover, Cursor.over_over] at hover'
      rw [hc', List.head?_append] at h
      exact ⟨read ++ read', by rw [hc, hc', List.append_assoc], hover', h.bind h'⟩

end

/-! ## Single tokens -/

section

variable {meaning : Token → Option α} {kind : TokenKind} {t : Token} {next : Option Token}

theorem Accepts.acceptAs_none (h : ∀ t, next = some t → meaning t = none) :
    Accepts (fun _ => acceptAs meaning) [] next none := by
  rintro room ⟨passed, ahead, depth⟩ rest _ rfl hnext
  cases ahead with
  | nil => exact Parse.acceptAs_nil meaning rfl
  | cons t ahead => exact Parse.acceptAs_none rfl (h t hnext.symm)

theorem Accepts.acceptAs_some {a : α} (h : meaning t = some a) :
    Accepts (fun _ => acceptAs meaning) [t] next (some a) :=
  fun _ _ _ _ hc _ => Parse.acceptAs_some hc h

theorem Accepts.expect (h : t.kind = kind) : Accepts (fun _ => expect kind) [t] next t := by
  intro room c rest _ hc _
  exact (expect_cons kind hc).trans (if_pos h)

theorem Rejects.expect (h : t.kind ≠ kind) : Rejects (fun _ => expect kind) [] t [kind] := by
  intro room c rest _ hc
  exact (expect_cons kind hc).trans (if_neg h)

theorem Starves.expect (kind : TokenKind) : Starves (fun _ => expect kind) [] [kind] := by
  rintro room ⟨passed, ahead, depth⟩ _ rfl
  exact expect_nil kind rfl

end

section

variable {room : Nat} {c : Cursor}

theorem LocalAt.pure (a : α) : LocalAt (fun _ => Pure.pure a) room c :=
  LocalAt.of_accepts [] c.ahead rfl rfl (Accepts.pure _ a)

theorem LocalAt.acceptAs (meaning : Token → Option α) :
    LocalAt (fun _ => acceptAs meaning) room c := by
  cases hc : c.ahead with
  | nil =>
    refine LocalAt.of_accepts [] c.ahead rfl (Parse.acceptAs_nil meaning hc) ?_
    exact Accepts.acceptAs_none (by simp [hc])
  | cons t rest =>
    cases hm : meaning t with
    | none =>
      refine LocalAt.of_accepts [] c.ahead rfl (Parse.acceptAs_none hc hm) ?_
      exact Accepts.acceptAs_none (by simp [hc, hm])
    | some a =>
      exact LocalAt.of_accepts [t] rest hc (Parse.acceptAs_some hc hm)
        (Accepts.acceptAs_some hm)

theorem LocalAt.expect (kind : TokenKind) : LocalAt (fun _ => expect kind) room c := by
  cases hc : c.ahead with
  | nil =>
    exact LocalAt.of_starves hc (expect_nil kind hc) (Starves.expect kind)
  | cons t rest =>
    have hrun := expect_cons kind hc
    by_cases hk : t.kind = kind
    · rw [if_pos hk] at hrun
      exact LocalAt.of_accepts [t] rest hc hrun (Accepts.expect hk)
    · rw [if_neg hk] at hrun
      exact LocalAt.of_rejects [] rest hc hrun (Rejects.expect hk)

end

/-! ## Nesting -/

section

variable {q : Nat → Parse α} {read : List Token} {t : Token} {next : Option Token} {a : α}
  {expected : List TokenKind}

theorem Accepts.nested (h : Accepts q read next a) :
    Accepts (fun room => nested (q room)) read next a := by
  intro room c rest hroom hc hnext
  have hrun := h room { c with depth := c.depth + 1 } rest hroom hc hnext
  show Parse.nested (q room) c = _
  unfold Parse.nested
  rw [hrun]
  rfl

theorem Rejects.nested (h : Rejects q read t expected) :
    Rejects (fun room => nested (q room)) read t expected := by
  intro room c rest hroom hc
  have hrun := h room { c with depth := c.depth + 1 } rest hroom hc
  show Parse.nested (q room) c = _
  unfold Parse.nested
  rw [hrun]
  rfl

theorem Starves.nested (h : Starves q read expected) :
    Starves (fun room => nested (q room)) read expected := by
  intro room c hroom hc
  have hrun := h room { c with depth := c.depth + 1 } hroom hc
  show Parse.nested (q room) c = _
  unfold Parse.nested
  rw [hrun]
  rfl

theorem LocalAt.nested {room : Nat} (h : ∀ c, LocalAt q room c) (c : Cursor) :
    LocalAt (fun room => nested (q room)) room c := by
  have hq := h { c with depth := c.depth + 1 }
  unfold LocalAt at hq ⊢
  show Explains _ c (Parse.nested (q room) c)
  unfold Parse.nested
  cases hrun : q room { c with depth := c.depth + 1 } with
  | ok a c' =>
    rw [hrun] at hq
    obtain ⟨read, hc, hover, ha⟩ := hq
    refine ⟨read, hc, ?_, ha.nested⟩
    rw [hover]
    rfl
  | error e c' =>
    rw [hrun] at hq
    cases e with
    | unexpectedToken t expected =>
      obtain ⟨read, hc, hover, hr⟩ := hq
      refine ⟨read, hc, ?_, hr.nested⟩
      rw [hover]
      rfl
    | unexpectedEnd position expected =>
      obtain ⟨hposition, hover, h⟩ := hq
      refine ⟨hposition, ?_, h.nested⟩
      rw [hover]
      rfl
    | nestingTooDeep t => trivial

end

/-! ## The grammar -/

section

variable {p : Nat → Parse Node} {room : Nat}

theorem LocalAt.chainFrom {tier : Nat} (ha : ∀ room, Advances (p room))
    (hp : ∀ c, LocalAt p room c) (left : Node) (c : Cursor) :
    LocalAt (fun room => chainFrom tier (p room) left) room c := by
  rw [show (fun room => Parse.chainFrom tier (p room) left) = _ from
    funext fun room => chainFrom_eq (ha room) left]
  -- induction on the tokens ahead, as in all loops
  refine LocalAt.bind (LocalAt.acceptAs _) ?_
  intro op c₁ h₁
  rcases op with _ | op
  · exact LocalAt.pure left
  · refine LocalAt.bind (hp c₁) ?_
    intro right c₂ h₂
    have k₁ : c₁.ahead.length ≤ c.ahead.length := Keeps.acceptAs _ _ _ _ h₁
    have k₂ : c₂.ahead.length < c₁.ahead.length := ha room _ _ _ h₂
    exact LocalAt.chainFrom ha hp _ c₂
termination_by c.ahead.length

theorem LocalAt.chained (tier : Nat) (ha : ∀ room, Advances (p room))
    (hp : ∀ c, LocalAt p room c) (c : Cursor) :
    LocalAt (fun room => chained tier (p room)) room c :=
  LocalAt.bind (hp c) fun left c' _ => LocalAt.chainFrom ha hp left c'

theorem LocalAt.expression (ha : ∀ room, Advances (p room)) (hp : ∀ c, LocalAt p room c)
    (c : Cursor) : LocalAt (fun room => expression (p room)) room c := by
  have h₄ := LocalAt.chained 4 ha hp
  have h₃ := LocalAt.chained 3 (fun room => (ha room).chained) h₄
  have h₂ := LocalAt.chained 2 (fun room => (ha room).chained.chained) h₃
  exact LocalAt.chained 1 (fun room => (ha room).chained.chained.chained) h₂ c

theorem LocalAt.statements (ha : ∀ room, Advances (p room)) (hp : ∀ c, LocalAt p room c)
    (c : Cursor) : LocalAt (fun room => statements (p room)) room c := by
  rw [show (fun room => Parse.statements (p room)) = _ from
    funext fun room => statements_eq (ha room)]
  refine LocalAt.bind (LocalAt.expression ha hp c) ?_
  intro e c₁ h₁
  refine LocalAt.bind (LocalAt.acceptAs _) ?_
  intro s c₂ h₂
  rcases s with _ | s
  · exact LocalAt.pure _
  · have k₁ : c₁.ahead.length < c.ahead.length := (ha room).expression _ _ _ h₁
    have k₂ : c₂.ahead.length ≤ c₁.ahead.length := Keeps.accept _ _ _ _ h₂
    exact LocalAt.bind (LocalAt.statements ha hp c₂) fun _ _ _ => LocalAt.pure _
termination_by c.ahead.length

theorem LocalAt.arguments (ha : ∀ room, Advances (p room)) (hp : ∀ c, LocalAt p room c)
    (c : Cursor) : LocalAt (fun room => arguments (p room)) room c := by
  rw [show (fun room => Parse.arguments (p room)) = _ from
    funext fun room => arguments_eq (ha room)]
  refine LocalAt.bind (LocalAt.acceptAs _) ?_
  intro r c₁ h₁
  rcases r with _ | r
  · refine LocalAt.bind (LocalAt.expression ha hp c₁) ?_
    intro e c₂ h₂
    refine LocalAt.bind (LocalAt.acceptAs _) ?_
    intro r c₃ h₃
    rcases r with _ | r
    · refine LocalAt.bind (LocalAt.expect _) ?_
      intro s c₄ h₄
      have k₁ : c₁.ahead.length ≤ c.ahead.length := Keeps.accept _ _ _ _ h₁
      have k₂ : c₂.ahead.length < c₁.ahead.length := (ha room).expression _ _ _ h₂
      have k₃ : c₃.ahead.length ≤ c₂.ahead.length := Keeps.accept _ _ _ _ h₃
      have k₄ : c₄.ahead.length < c₃.ahead.length := Advances.expect _ _ _ _ h₄
      exact LocalAt.bind (LocalAt.arguments ha hp c₄) fun _ _ _ => LocalAt.pure _
    · exact LocalAt.pure _
  · exact LocalAt.pure _
termination_by c.ahead.length

theorem LocalAt.userVar (ha : ∀ room, Advances (p room)) (hp : ∀ c, LocalAt p room c)
    (dollar : Token) (c : Cursor) : LocalAt (fun room => userVar (p room) dollar) room c := by
  unfold Parse.userVar
  refine LocalAt.bind (LocalAt.expect _) ?_
  intro x c₁ _
  refine LocalAt.bind (LocalAt.acceptAs _) ?_
  intro q c₂ _
  rcases q with _ | q
  · refine LocalAt.bind (LocalAt.acceptAs _) ?_
    intro op c₃ _
    rcases op with _ | op
    · exact LocalAt.pure _
    · exact LocalAt.bind (LocalAt.expression ha hp c₃) fun _ _ _ => LocalAt.pure _
  · exact LocalAt.bind (LocalAt.expression ha hp c₂) fun _ _ _ => LocalAt.pure _

theorem LocalAt.ifElse (ha : ∀ room, Advances (p room)) (hp : ∀ c, LocalAt p room c)
    (word : Token) (c : Cursor) : LocalAt (fun room => ifElse (p room) word) room c := by
  have he := LocalAt.expression ha hp
  unfold Parse.ifElse
  refine LocalAt.bind (LocalAt.expect _) fun _ c₁ _ => LocalAt.bind (he c₁) fun cond c₂ _ => ?_
  refine LocalAt.bind (LocalAt.expect _) fun _ c₃ _ => LocalAt.bind (he c₃) fun yes c₄ _ => ?_
  refine LocalAt.bind (LocalAt.expect _) fun _ c₅ _ => LocalAt.bind (he c₅) fun no c₆ _ => ?_
  exact LocalAt.pure _

/-- Behind a token that begins a primary expression, the rest of it is local. -/
theorem LocalAt.primaryAfter (ha : ∀ room, Advances (p room)) (hp : ∀ c, LocalAt p room c)
    {t : Token} (ht : t.kind ∈ TokenKind.primaryStart) (c : Cursor) :
    LocalAt (fun room => primaryAfter (p room) t) room c := by
  unfold Parse.primaryAfter
  split
  case h_1 => exact LocalAt.pure _
  case h_2 => exact LocalAt.pure _
  case h_3 => exact LocalAt.pure _
  case h_4 => exact LocalAt.bind (hp c) fun _ _ _ => LocalAt.pure _
  case h_5 => exact LocalAt.bind (hp c) fun _ _ _ => LocalAt.pure _
  case h_6 =>
    refine LocalAt.bind (LocalAt.acceptAs _) ?_
    intro l c₁ _
    rcases l with _ | l
    · exact LocalAt.pure _
    · exact LocalAt.bind (LocalAt.arguments ha hp c₁) fun _ _ _ => LocalAt.pure _
  case h_7 => exact LocalAt.userVar ha hp t c
  case h_8 =>
    refine LocalAt.bind (LocalAt.statements ha hp c) fun _ c₁ _ => ?_
    exact LocalAt.bind (LocalAt.expect _) fun _ _ _ => LocalAt.pure _
  case h_9 =>
    refine LocalAt.bind (LocalAt.expression ha hp c) fun _ c₁ _ => ?_
    exact LocalAt.bind (LocalAt.expect _) fun _ _ _ => LocalAt.pure _
  case h_10 => exact LocalAt.ifElse ha hp t c
  case h_11 => simp_all [TokenKind.primaryStart]

end

/-! ## Primary expressions -/

/-- What is read of a primary expression behind its first token. -/
def primaryBehind (t : Token) (room : Nat) : Parse Node :=
  nested (primaryAfter (primary room) t)

theorem primary_succ {room : Nat} {c : Cursor} {t : Token} {rest : List Token}
    (hc : c.ahead = t :: rest) :
    primary (room + 1) c = primaryBehind t room (c.over [t] rest) :=
  bind_ok (advance_cons _ hc)

section

variable {t u : Token} {read : List Token} {next : Option Token} {a : Node}
  {expected : List TokenKind}

/-- One level of room goes to the primary expression itself, and one token to its beginning. -/
theorem Accepts.primary (h : Accepts (primaryBehind t) read next a) :
    Accepts primary (t :: read) next a := by
  intro room c rest hroom hc hnext
  cases room with
  | zero => simp at hroom
  | succ room =>
    have hrun := h room (c.over [t] (read ++ rest)) rest (Nat.le_of_succ_le_succ hroom) rfl hnext
    rw [Cursor.over_over] at hrun
    exact (primary_succ hc).trans hrun

theorem Rejects.primary (h : Rejects (primaryBehind t) read u expected) :
    Rejects primary (t :: read) u expected := by
  intro room c rest hroom hc
  cases room with
  | zero => simp at hroom
  | succ room =>
    have hrun := h room (c.over [t] (read ++ u :: rest)) rest (Nat.lt_of_succ_lt_succ hroom) rfl
    rw [Cursor.over_over] at hrun
    exact (primary_succ hc).trans hrun

theorem Starves.primary (h : Starves (primaryBehind t) read expected) :
    Starves primary (t :: read) expected := by
  intro room c hroom hc
  cases room with
  | zero => simp at hroom
  | succ room =>
    have hrun := h room (c.over [t] read) (Nat.le_of_succ_le_succ hroom) rfl
    rw [Cursor.over_over, Cursor.endPosition_over [t] read hc] at hrun
    exact (primary_succ hc).trans hrun

theorem Rejects.primary_start (h : t.kind ∉ TokenKind.primaryStart) :
    Rejects Parse.primary [] t TokenKind.primaryStart := by
  intro room c rest hroom hc
  cases room with
  | zero => simp at hroom
  | succ room =>
    rw [primary_succ hc, primaryBehind, primaryAfter_of_notMem _ h]
    rfl

theorem Starves.primary_start : Starves Parse.primary [] TokenKind.primaryStart := by
  rintro (_ | room) ⟨passed, ahead, depth⟩ _ rfl
  · exact bind_error (advance_nil _ rfl)
  · exact bind_error (advance_nil _ rfl)

end

theorem LocalAt.primary_succ {room : Nat} {c : Cursor} {t : Token} {rest : List Token}
    (h : LocalAt (primaryBehind t) room (c.over [t] rest)) (hc : c.ahead = t :: rest) :
    LocalAt primary (room + 1) c := by
  unfold LocalAt at h ⊢
  rw [Parse.primary_succ hc]
  generalize primaryBehind t room (c.over [t] rest) = r at h
  rcases r with ⟨a, c'⟩ | ⟨_ | _ | _, c'⟩
  · obtain ⟨read, hread, hover, ha⟩ := h
    rw [Cursor.over_over] at hover
    exact ⟨t :: read, by rw [hc]; exact congrArg (t :: ·) hread, hover, ha.primary⟩
  · obtain ⟨hposition, hover, h⟩ := h
    rw [Cursor.endPosition_over [t] rest hc] at hposition
    rw [Cursor.over_over] at hover
    unfold Explains
    rw [hc]
    exact ⟨hposition, hover, Starves.primary h⟩
  · obtain ⟨read, hread, hover, hr⟩ := h
    rw [Cursor.over_over] at hover
    exact ⟨t :: read, by rw [hc]; exact congrArg (t :: ·) hread, hover, hr.primary⟩
  · trivial

theorem LocalAt.primary (room : Nat) (c : Cursor) : LocalAt primary room c := by
  induction room generalizing c with
  | zero =>
    cases hc : c.ahead with
    | nil =>
      exact LocalAt.of_starves hc (primary_nil _ hc) Starves.primary_start
    | cons t rest =>
      -- a lack of room is no matter of the tokens, and nothing is said of it
      unfold LocalAt
      rw [primary_zero hc]
      trivial
  | succ room ih =>
    cases hc : c.ahead with
    | nil =>
      exact LocalAt.of_starves hc (primary_nil _ hc) Starves.primary_start
    | cons t rest =>
      by_cases ht : t.kind ∈ TokenKind.primaryStart
      · have hbehind : LocalAt (primaryBehind t) room (c.over [t] rest) :=
          LocalAt.nested (LocalAt.primaryAfter Advances.primary ih ht) _
        exact hbehind.primary_succ hc
      -- the token itself is at fault
      · refine LocalAt.of_rejects [] rest hc ?_ (Rejects.primary_start ht)
        exact Rejects.primary_start ht _ _ _ (Nat.succ_pos room) hc

/-- The statements of a program depend on no more than they read and the token behind. -/
theorem LocalAt.statements_primary (room : Nat) (c : Cursor) :
    LocalAt (fun room => Parse.statements (Parse.primary room)) room c :=
  LocalAt.statements Advances.primary (LocalAt.primary room) c

end ExprFront.Parse
