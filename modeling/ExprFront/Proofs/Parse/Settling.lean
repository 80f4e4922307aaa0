import ExprFront.Proofs.Parse.Locality

/-!
# Where parsing leaves the cursor

Every step of the grammar leaves the cursor behind the tokens that it has read, up to the one that
it reports. However it ends, the primary expressions that it opened are closed again, but for one: an
expression that is found to be nested too deeply counts as open ever after.
-/

namespace ExprFront

namespace Cursor

variable {c : Cursor} {t : Token} {read rest : List Token}

@[simp] theorem index_over : (c.over read rest).index = c.index + read.length := by
  simp [index, Cursor.over, Nat.add_comm]

/-- Passing over tokens changes nothing about all of them. -/
theorem tokens_over (h : c.ahead = read ++ rest) : (c.over read rest).tokens = c.tokens := by
  simp [tokens, Cursor.over, h]

theorem index_eq_length (h : c.ahead = []) : c.index = c.tokens.length := by
  simp [tokens, index, h]

theorem getElem?_index (h : c.ahead = t :: rest) : c.tokens[c.index]? = some t := by
  simp [tokens, index, h]

/-- The last token passed over. -/
theorem getElem?_over_concat (h : c.ahead = read ++ t :: rest) :
    0 < (c.over (read ++ [t]) rest).index ∧
      c.tokens[(c.over (read ++ [t]) rest).index - 1]? = some t := by
  have hindex : (c.over (read ++ [t]) rest).index = (c.passed.reverse ++ read).length + 1 := by
    rw [index_over]
    simp [index, Nat.add_assoc]
  have htokens : c.tokens = c.passed.reverse ++ read ++ t :: rest := by simp [tokens, h]
  rw [hindex, htokens, Nat.add_sub_cancel, List.getElem?_append_right (Nat.le_refl _),
    Nat.sub_self]
  exact ⟨Nat.succ_pos _, rfl⟩

end Cursor

namespace Parse

variable {α β : Type}

/-! ## Where a step leaves the cursor -/

/-- A success leaves the cursor behind the tokens read, of which there are at least so many, and a
failure behind the token at fault. As many primary expressions are open as before, and one more
where the nesting is too deep. -/
inductive Settled (least : Nat) (c : Cursor) : EStateM.Result ParseError Cursor α → Prop where
  | ok {a : α} (read : List Token) {rest : List Token} (hc : c.ahead = read ++ rest)
      (hleast : least ≤ read.length) : Settled least c (.ok a (c.over read rest))
  | unexpectedEnd {position : Position} {expected : List TokenKind} :
      Settled least c (.error (.unexpectedEnd position expected) (c.over c.ahead []))
  | unexpectedToken {t : Token} {expected : List TokenKind} (read : List Token) {rest : List Token}
      (hc : c.ahead = read ++ t :: rest) :
      Settled least c (.error (.unexpectedToken t expected) (c.over (read ++ [t]) rest))
  | nestingTooDeep {t : Token} (read : List Token) {rest : List Token}
      (hc : c.ahead = read ++ t :: rest) :
      Settled least c
        (.error (.nestingTooDeep t) { c.over (read ++ [t]) rest with depth := c.depth + 1 })

/-- Wherever the step begins, it leaves the cursor in this way. -/
def Settles (least : Nat) (p : Parse α) : Prop :=
  ∀ c, Settled least c (p c)

section

variable {least least' : Nat} {p : Parse α} {f : α → Parse β} {c : Cursor}
  {r : EStateM.Result ParseError Cursor α}

theorem Settled.mono (h : Settled least c r) (hle : least' ≤ least) : Settled least' c r := by
  cases h with
  | ok read hc hleast => exact .ok read hc (Nat.le_trans hle hleast)
  | unexpectedEnd => exact .unexpectedEnd
  | unexpectedToken read hc => exact .unexpectedToken read hc
  | nestingTooDeep read hc => exact .nestingTooDeep read hc

/-- What has been read before a step is read with it. -/
theorem Settled.over {read rest : List Token}
    (h : Settled (least - read.length) (c.over read rest) r) (hc : c.ahead = read ++ rest) :
    Settled least c r := by
  cases h with
  | @ok a read' rest' hc' hleast =>
    replace hc' : rest = read' ++ rest' := hc'
    rw [Cursor.over_over]
    refine .ok _ (by rw [hc, hc', List.append_assoc]) ?_
    rw [List.length_append]
    omega
  | unexpectedEnd =>
    have hall : (c.over read rest).over rest [] = c.over c.ahead [] := by rw [Cursor.over_over, hc]
    exact hall ▸ .unexpectedEnd
  | @unexpectedToken t expected read' rest' hc' =>
    replace hc' : rest = read' ++ t :: rest' := hc'
    rw [Cursor.over_over, ← List.append_assoc]
    exact .unexpectedToken _ (by rw [hc, hc', List.append_assoc])
  | @nestingTooDeep t read' rest' hc' =>
    replace hc' : rest = read' ++ t :: rest' := hc'
    rw [Cursor.over_over, ← List.append_assoc]
    exact .nestingTooDeep _ (by rw [hc, hc', List.append_assoc])

/-- What a failure leaves behind does not depend on what a success would have given. -/
theorem Settled.of_error {e : ParseError} {c' : Cursor}
    (h : Settled least c (.error e c' : EStateM.Result ParseError Cursor α)) :
    Settled least c (.error e c' : EStateM.Result ParseError Cursor β) := by
  cases h with
  | unexpectedEnd => exact .unexpectedEnd
  | unexpectedToken read hc => exact .unexpectedToken read hc
  | nestingTooDeep read hc => exact .nestingTooDeep read hc

theorem Settled.exists_of_ok {a : α} {c' : Cursor} (h : Settled least c (.ok a c')) :
    ∃ read, c.ahead = read ++ c'.ahead ∧ least ≤ read.length ∧ c' = c.over read c'.ahead := by
  cases h with
  | ok read hc hleast => exact ⟨read, hc, hleast, rfl⟩

theorem Settles.mono (h : Settles least p) (hle : least' ≤ least) : Settles least' p :=
  fun c => (h c).mono hle

theorem Settles.pure (a : α) : Settles 0 (Pure.pure a : Parse α) :=
  fun _ => .ok [] (List.nil_append _).symm (Nat.le_refl 0)

theorem Settles.bind (hp : Settles least p) (hf : ∀ a, Settles (least' - least) (f a)) :
    Settles least' (p >>= f) := by
  intro c
  have h := hp c
  rw [bind_apply]
  generalize p c = r at h
  cases h with
  | ok read hc hleast =>
    have hle : least' - read.length ≤ least' - least := Nat.sub_le_sub_left hleast least'
    exact ((hf _ _).mono hle).over hc
  | unexpectedEnd => exact .unexpectedEnd
  | unexpectedToken read hc => exact .unexpectedToken read hc
  | nestingTooDeep read hc => exact .nestingTooDeep read hc

theorem Settles.bounded {step : List Token → Parse α} (h : ∀ rounds, Settles least (step rounds)) :
    Settles least (bounded step) :=
  fun c => h c.ahead c

theorem Settles.nested (h : Settles least p) : Settles least (nested p) := by
  intro c
  have h' := h { c with depth := c.depth + 1 }
  unfold Parse.nested
  generalize p { c with depth := c.depth + 1 } = r at h'
  -- the level opened is closed again, whatever the step has left open
  cases h' with
  | ok read hc hleast => exact .ok read hc hleast
  | unexpectedEnd => exact .unexpectedEnd
  | unexpectedToken read hc => exact .unexpectedToken read hc
  | nestingTooDeep read hc => exact .nestingTooDeep read hc

/-! ## Single tokens -/

theorem Settles.advance (expected : List TokenKind) : Settles 1 (advance expected) := by
  rintro ⟨passed, ahead, depth⟩
  cases ahead with
  | nil => exact .unexpectedEnd
  | cons t rest => exact .ok [t] rfl (Nat.le_refl 1)

theorem Settles.expect (kind : TokenKind) : Settles 1 (expect kind) := by
  rintro ⟨passed, ahead, depth⟩
  cases ahead with
  | nil =>
    rw [expect_nil kind rfl]
    exact .unexpectedEnd
  | cons t rest =>
    rw [expect_cons kind rfl]
    split
    · exact .ok [t] rfl (Nat.le_refl 1)
    · exact .unexpectedToken [] rfl

/-- A token that is passed over if it has a meaning is one token read. -/
theorem Settles.acceptAs_bind {meaning : Token → Option α} {f : Option α → Parse β}
    (hnone : Settles least (f none)) (hsome : ∀ a, Settles (least - 1) (f (some a))) :
    Settles least (acceptAs meaning >>= f) := by
  intro c
  cases hc : c.ahead with
  | nil =>
    rw [bind_ok (acceptAs_nil meaning hc)]
    exact hnone c
  | cons t rest =>
    cases hm : meaning t with
    | none =>
      rw [bind_ok (acceptAs_none hc hm)]
      exact hnone c
    | some a =>
      rw [bind_ok (acceptAs_some hc hm)]
      have hsettled : Settled (least - [t].length) (c.over [t] rest) (f (some a) _) := hsome a _
      exact hsettled.over hc

theorem Settles.acceptAs (meaning : Token → Option α) : Settles 0 (acceptAs meaning) := by
  have hpure : Settles 0 (Parse.acceptAs meaning >>= Pure.pure) :=
    Settles.acceptAs_bind (.pure none) fun a => .pure (some a)
  rwa [bind_pure] at hpure

end

/-! ## The grammar -/

section

variable {p : Parse Node} (h : Settles 1 p)
include h

theorem Settles.chained (tier : Nat) : Settles 1 (chained tier p) := by
  have hchain : ∀ rounds left, Settles 0 (chain tier p rounds left) := by
    intro rounds
    induction rounds with
    | nil => exact fun left => .pure left
    | cons t rounds ih =>
      intro left
      unfold Parse.chain
      exact Settles.acceptAs_bind (.pure left) fun op =>
        (h.mono (Nat.zero_le 1)).bind fun right => ih _
  exact h.bind fun left => .bounded fun rounds => hchain rounds left

theorem Settles.multiplicative : Settles 1 (multiplicative p) :=
  h.chained 4

theorem Settles.additive : Settles 1 (additive p) :=
  h.multiplicative.chained 3

theorem Settles.relational : Settles 1 (relational p) :=
  h.additive.chained 2

theorem Settles.expression : Settles 1 (expression p) :=
  h.relational.chained 1

theorem Settles.statements : Settles 1 (statements p) := by
  refine .bounded fun rounds => ?_
  induction rounds with
  | nil => exact h.expression.bind fun e => .pure _
  | cons t rounds ih =>
    unfold Parse.statementRounds
    refine h.expression.bind fun e => Settles.acceptAs_bind (.pure _) fun s => ?_
    exact (ih.mono (Nat.zero_le 1)).bind fun _ => .pure _

theorem Settles.blockBody : Settles 1 (blockBody p) :=
  fun c => (h.statements.bind fun _ => Settles.pure _) c

theorem Settles.arguments : Settles 1 (arguments p) := by
  refine .bounded fun rounds => ?_
  induction rounds with
  | nil => exact h.expression.bind fun e => .pure _
  | cons t rounds ih =>
    unfold Parse.argumentRounds
    refine Settles.acceptAs_bind (h.expression.bind fun e => ?_) fun _ => .pure _
    refine Settles.acceptAs_bind ?_ fun _ => .pure _
    exact ((Settles.expect _).mono (Nat.zero_le 1)).bind fun _ =>
      (ih.mono (Nat.zero_le 1)).bind fun _ => .pure _

theorem Settles.userVar (dollar : Token) : Settles 1 (userVar p dollar) := by
  have hvalue := h.expression.mono (Nat.zero_le 1)
  unfold Parse.userVar
  refine (Settles.expect _).bind fun x => Settles.acceptAs_bind ?_ fun _ => ?_
  · exact Settles.acceptAs_bind (.pure _) fun op => hvalue.bind fun _ => .pure _
  · exact hvalue.bind fun _ => .pure _

theorem Settles.ifElse (word : Token) : Settles 1 (ifElse p word) := by
  have hpart := h.expression.mono (Nat.zero_le 1)
  have hword := fun kind => (Settles.expect kind).mono (Nat.zero_le 1)
  unfold Parse.ifElse
  refine (Settles.expect _).bind fun _ => hpart.bind fun cond => ?_
  refine (hword _).bind fun _ => hpart.bind fun yes => ?_
  exact (hword _).bind fun _ => hpart.bind fun no => .pure _

theorem Settles.primaryAfter {t : Token} (ht : t.kind ∈ TokenKind.primaryStart) :
    Settles 0 (primaryAfter p t) := by
  have hpart := h.mono (Nat.zero_le 1)
  have hword := fun kind => (Settles.expect kind).mono (Nat.zero_le 1)
  unfold Parse.primaryAfter
  split
  case h_1 => exact .pure _
  case h_2 => exact .pure _
  case h_3 => exact .pure _
  case h_4 => exact hpart.bind fun _ => .pure _
  case h_5 => exact hpart.bind fun _ => .pure _
  case h_6 =>
    refine Settles.acceptAs_bind (.pure _) fun _ => ?_
    exact (h.arguments.mono (Nat.zero_le 1)).bind fun _ => .pure _
  case h_7 => exact (h.userVar t).mono (Nat.zero_le 1)
  case h_8 =>
    exact (h.statements.mono (Nat.zero_le 1)).bind fun _ => (hword _).bind fun _ => .pure _
  case h_9 =>
    exact (h.expression.mono (Nat.zero_le 1)).bind fun _ => (hword _).bind fun _ => .pure _
  case h_10 => exact (h.ifElse t).mono (Nat.zero_le 1)
  case h_11 => simp_all [TokenKind.primaryStart]

end

theorem Settles.primary (room : Nat) : Settles 1 (primary room) := by
  induction room with
  | zero =>
    rintro ⟨passed, ahead, depth⟩
    cases ahead with
    | nil => exact .unexpectedEnd
    | cons t rest => exact .nestingTooDeep [] rfl
  | succ room ih =>
    rintro ⟨passed, ahead, depth⟩
    cases ahead with
    | nil => exact .unexpectedEnd
    | cons t rest =>
      rw [primary_succ rfl, primaryBehind]
      by_cases ht : t.kind ∈ TokenKind.primaryStart
      · have hbehind : Settled (1 - [t].length) (Cursor.over ⟨passed, t :: rest, depth⟩ [t] rest)
            (Parse.nested (Parse.primaryAfter (Parse.primary room) t) _) :=
          (ih.primaryAfter ht).nested _
        exact hbehind.over rfl
      -- the token that begins nothing has been passed over
      · rw [primaryAfter_of_notMem _ ht]
        exact .unexpectedToken [] rfl

/-- A program is the body of a block with nothing left over. -/
theorem program_run (p : Parse Node) (c : Cursor) :
    program p c = match blockBody p c with
      | .error e c' => .error e c'
      | .ok block c' => match c'.ahead with
        | [] => .ok block c'
        | t :: _ => .error (.unexpectedToken t TokenKind.continuation) c' := by
  unfold program
  rw [bind_apply]
  cases blockBody p c with
  | error e c' => rfl
  | ok block c' =>
    obtain ⟨passed, ahead, depth⟩ := c'
    cases ahead <;> rfl

/-! ## The limit -/

theorem within_apply (maxDepth : Int) (step : Parse Node → Parse α) (c : Cursor) :
    within maxDepth step c = step (Parse.primary (c.room maxDepth)) c := rfl

theorem Settles.within {least : Nat} {step : Parse Node → Parse α}
    (h : ∀ room, Settles least (step (Parse.primary room))) (maxDepth : Int) :
    Settles least (within maxDepth step) :=
  fun c => h (c.room maxDepth) c

end Parse

end ExprFront
