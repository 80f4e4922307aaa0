import ExprFront.Proofs.Grammar.Phrase
import ExprFront.Proofs.Parse.Calls

/-!
# Calls in a context

A call has a context: the tokens passed before it and the primary expressions open around it. Of the
tokens it reads none is in the context, and of the limit it uses only what is left, so it does in its
context what it does without one. Where the tokens end is the same place, since the last of them is
not in the context. A call that succeeds has looked at one token behind those that it has read, so
that everything further on can be exchanged as well.
-/

namespace ExprFront

/-! ## Contexts -/

namespace Cursor

variable {c outer : Cursor}

/-- A cursor in a context: more tokens have been passed, and more primary expressions are open. -/
def inside (c outer : Cursor) : Cursor :=
  { passed := c.passed ++ outer.passed, ahead := c.ahead, depth := outer.depth + c.depth }

/-- A cursor in a context is as much further on as the context has passed. -/
@[simp] theorem index_inside : (c.inside outer).index = outer.index + c.index := by
  simp [index, inside, Nat.add_comm]

/-- Every cursor is a new one in a context. -/
theorem ofTokens_inside (c : Cursor) : (ofTokens c.ahead).inside c = c := rfl

/-- Of the limit there is as much left as the context has not used. -/
theorem room_inside (maxDepth : Int) (c outer : Cursor) :
    (c.inside outer).room maxDepth = c.room (maxDepth - outer.depth) := by
  simp only [room, inside]
  omega

/-- A level that is open inside is closed there. -/
theorem close_inside (h : 0 < c.depth) :
    { c.inside outer with depth := (c.inside outer).depth - 1 } =
      { c with depth := c.depth - 1 }.inside outer := by
  simp only [inside, Nat.add_sub_assoc h]

/-- Unless the last of all tokens is in the context, it is the same. -/
theorem endError_inside (h : c.tokens ≠ []) (expected : List TokenKind) :
    (c.inside outer).endError expected = c.endError expected := by
  have hlast : (c.inside outer).last? = c.last? := by
    cases hahead : c.ahead.getLast? with
    | some t => simp [last?, inside, hahead]
    | none =>
      have hnil : c.ahead = [] := List.getLast?_eq_none_iff.1 hahead
      cases hpassed : c.passed with
      | nil => simp [tokens, hnil, hpassed] at h
      | cons t passed => simp [last?, inside, hnil, hpassed]
  simp only [endError, endPosition, hlast]

end Cursor

namespace Parse

variable {α β : Type}

/-- An outcome in a context. -/
def outcomeInside (outer : Cursor) :
    EStateM.Result ParseError Cursor α → EStateM.Result ParseError Cursor α
  | .ok a c => .ok a (c.inside outer)
  | .error e c => .error e (c.inside outer)

/-- The step does in every context what it does without one. It keeps its tokens, and what has been
opened around it stays open. -/
structure Embeds (p : Parse α) : Prop where
  inside : ∀ outer c, c.tokens ≠ [] → p (c.inside outer) = outcomeInside outer (p c)
  tokens_eq : ∀ c, (cursorBehind (p c)).tokens = c.tokens
  depth_le : ∀ c, c.depth ≤ (cursorBehind (p c)).depth

section

variable {p : Parse α} {f : α → Parse β}

theorem Embeds.pure (a : α) : Embeds (Pure.pure a) :=
  ⟨fun _ _ _ => rfl, fun _ => rfl, fun _ => Nat.le_refl _⟩

theorem Embeds.throw (e : ParseError) : Embeds (MonadExcept.throw e : Parse α) :=
  ⟨fun _ _ _ => rfl, fun _ => rfl, fun _ => Nat.le_refl _⟩

theorem Embeds.bind (hp : Embeds p) (hf : ∀ a, Embeds (f a)) : Embeds (p >>= f) := by
  refine ⟨fun outer c h => ?_, fun c => ?_, fun c => ?_⟩
  all_goals
    have htokens := hp.tokens_eq c
    have hdepth := hp.depth_le c
  · rw [bind_apply, bind_apply, hp.inside outer c h]
    cases hrun : p c with
    | error e c' => rfl
    | ok a c' =>
      rw [hrun] at htokens
      exact (hf a).inside outer c' (htokens ▸ h)
  · rw [bind_apply]
    cases hrun : p c with
    | error e c' => rwa [hrun] at htokens
    | ok a c' =>
      rw [hrun] at htokens
      exact ((hf a).tokens_eq c').trans htokens
  · rw [bind_apply]
    cases hrun : p c with
    | error e c' => rwa [hrun] at hdepth
    | ok a c' =>
      rw [hrun] at hdepth
      exact Nat.le_trans hdepth ((hf a).depth_le c')

theorem Embeds.bounded {step : List Token → Parse α} (h : ∀ rounds, Embeds (step rounds)) :
    Embeds (bounded step) :=
  ⟨fun outer c => (h c.ahead).inside outer c, fun c => (h c.ahead).tokens_eq c,
    fun c => (h c.ahead).depth_le c⟩

/-- A step may look at the tokens ahead, which are the same in a context. -/
theorem Embeds.get_bind {f : Cursor → Parse α} (hf : ∀ c, Embeds (f c))
    (hinside : ∀ outer c, f (c.inside outer) = f c) : Embeds (get >>= f) := by
  refine ⟨fun outer c h => ?_, fun c => (hf c).tokens_eq c, fun c => (hf c).depth_le c⟩
  show f (c.inside outer) (c.inside outer) = outcomeInside outer (f c c)
  rw [hinside]
  exact (hf c).inside outer c h

theorem Embeds.nested (hp : Embeds p) : Embeds (nested p) := by
  refine ⟨fun outer c h => ?_, fun c => ?_, fun c => ?_⟩
  all_goals
    have htokens := hp.tokens_eq { c with depth := c.depth + 1 }
    have hdepth := hp.depth_le { c with depth := c.depth + 1 }
    unfold Parse.nested
  · have hinside : p { c.inside outer with depth := (c.inside outer).depth + 1 } =
        outcomeInside outer (p { c with depth := c.depth + 1 }) :=
      hp.inside outer { c with depth := c.depth + 1 } h
    rw [hinside]
    -- what is closed again is the level that has been opened here, not one of the context
    cases hrun : p { c with depth := c.depth + 1 } with
    | ok a c' =>
      rw [hrun] at hdepth
      exact congrArg (EStateM.Result.ok a) (Cursor.close_inside (Nat.zero_lt_of_lt hdepth))
    | error e c' =>
      rw [hrun] at hdepth
      exact congrArg (EStateM.Result.error e) (Cursor.close_inside (Nat.zero_lt_of_lt hdepth))
  · cases hrun : p { c with depth := c.depth + 1 } <;> rw [hrun] at htokens <;> exact htokens
  · cases hrun : p { c with depth := c.depth + 1 } <;> rw [hrun] at hdepth <;>
      exact Nat.le_sub_one_of_lt hdepth

/-! ## Single tokens -/

theorem Settled.keeps {least : Nat} {c : Cursor} {r : EStateM.Result ParseError Cursor α}
    (h : Settled least c r) :
    (cursorBehind r).tokens = c.tokens ∧ c.depth ≤ (cursorBehind r).depth := by
  cases h with
  | ok read hc => exact ⟨Cursor.tokens_over hc, Nat.le_refl _⟩
  | unexpectedEnd => exact ⟨Cursor.tokens_over (List.append_nil _).symm, Nat.le_refl _⟩
  | @unexpectedToken t _ read rest hc =>
    have hread : c.ahead = (read ++ [t]) ++ rest := by simp [hc]
    exact ⟨Cursor.tokens_over hread, Nat.le_refl _⟩
  | @nestingTooDeep t read rest hc =>
    have hread : c.ahead = (read ++ [t]) ++ rest := by simp [hc]
    exact ⟨Cursor.tokens_over hread, Nat.le_succ _⟩

theorem Embeds.of_settles {least : Nat} (h : Settles least p)
    (hinside : ∀ outer c, c.tokens ≠ [] → p (c.inside outer) = outcomeInside outer (p c)) :
    Embeds p :=
  ⟨hinside, fun c => (h c).keeps.1, fun c => (h c).keeps.2⟩

theorem Embeds.advance (expected : List TokenKind) : Embeds (advance expected) := by
  refine .of_settles (Settles.advance expected) ?_
  rintro outer ⟨passed, ahead, depth⟩ h
  cases ahead with
  | nil =>
    rw [advance_nil expected rfl, advance_nil expected rfl, Cursor.endError_inside h]
    rfl
  | cons t rest => rfl

theorem Embeds.acceptAs (meaning : Token → Option α) : Embeds (acceptAs meaning) := by
  refine .of_settles (Settles.acceptAs meaning) ?_
  rintro outer ⟨passed, ahead, depth⟩ -
  cases ahead with
  | nil => rfl
  | cons t rest =>
    cases hm : meaning t with
    | none =>
      rw [acceptAs_none rfl hm, acceptAs_none rfl hm]
      rfl
    | some a =>
      rw [acceptAs_some rfl hm, acceptAs_some rfl hm]
      rfl

theorem Embeds.expect (kind : TokenKind) : Embeds (expect kind) := by
  refine (Embeds.advance [kind]).bind fun t => ?_
  split
  · exact .pure t
  · exact .throw _

end

/-! ## The grammar -/

section

variable {p : Parse Node} (h : Embeds p)
include h

theorem Embeds.chained (tier : Nat) : Embeds (chained tier p) := by
  have hchain : ∀ rounds left, Embeds (chain tier p rounds left) := by
    intro rounds
    induction rounds with
    | nil => exact fun left => .pure left
    | cons t rounds ih =>
      refine fun left => (Embeds.acceptAs _).bind fun op => ?_
      rcases op with _ | op
      · exact .pure left
      · exact h.bind fun right => ih _
  exact h.bind fun left => .bounded fun rounds => hchain rounds left

theorem Embeds.multiplicative : Embeds (multiplicative p) :=
  h.chained 4

theorem Embeds.additive : Embeds (additive p) :=
  h.multiplicative.chained 3

theorem Embeds.relational : Embeds (relational p) :=
  h.additive.chained 2

theorem Embeds.expression : Embeds (expression p) :=
  h.relational.chained 1

theorem Embeds.statements : Embeds (statements p) := by
  refine .bounded fun rounds => ?_
  induction rounds with
  | nil => exact h.expression.bind fun e => .pure _
  | cons t rounds ih =>
    refine h.expression.bind fun e => (Embeds.acceptAs _).bind fun s => ?_
    rcases s with _ | s
    · exact .pure _
    · exact ih.bind fun _ => .pure _

theorem Embeds.blockBody : Embeds (blockBody p) :=
  .get_bind (fun _ => h.statements.bind fun _ => .pure _) fun _ _ => rfl

theorem Embeds.program : Embeds (program p) := by
  refine h.blockBody.bind fun block => .get_bind (fun c => ?_) fun _ _ => rfl
  split
  · exact .pure block
  · exact .throw _

theorem Embeds.arguments : Embeds (arguments p) := by
  refine .bounded fun rounds => ?_
  induction rounds with
  | nil => exact h.expression.bind fun e => .pure _
  | cons t rounds ih =>
    refine (Embeds.acceptAs _).bind fun close => ?_
    rcases close with _ | close
    · refine h.expression.bind fun e => (Embeds.acceptAs _).bind fun close => ?_
      rcases close with _ | close
      · exact (Embeds.expect _).bind fun _ => ih.bind fun _ => .pure _
      · exact .pure _
    · exact .pure _

theorem Embeds.userVar (dollar : Token) : Embeds (userVar p dollar) := by
  refine (Embeds.expect _).bind fun x => (Embeds.acceptAs _).bind fun q => ?_
  rcases q with _ | q
  · refine (Embeds.acceptAs _).bind fun op => ?_
    rcases op with _ | op
    · exact .pure _
    · exact h.expression.bind fun _ => .pure _
  · exact h.expression.bind fun _ => .pure _

theorem Embeds.ifElse (word : Token) : Embeds (ifElse p word) := by
  refine (Embeds.expect _).bind fun _ => h.expression.bind fun cond => ?_
  refine (Embeds.expect _).bind fun _ => h.expression.bind fun yes => ?_
  exact (Embeds.expect _).bind fun _ => h.expression.bind fun no => .pure _

theorem Embeds.primaryAfter (t : Token) : Embeds (primaryAfter p t) := by
  unfold Parse.primaryAfter
  split
  case h_1 => exact .pure _
  case h_2 => exact .pure _
  case h_3 => exact .pure _
  case h_4 => exact h.bind fun _ => .pure _
  case h_5 => exact h.bind fun _ => .pure _
  case h_6 =>
    refine (Embeds.acceptAs _).bind fun l => ?_
    rcases l with _ | l
    · exact .pure _
    · exact h.arguments.bind fun _ => .pure _
  case h_7 => exact h.userVar t
  case h_8 => exact h.statements.bind fun _ => (Embeds.expect _).bind fun _ => .pure _
  case h_9 => exact h.expression.bind fun _ => (Embeds.expect _).bind fun _ => .pure _
  case h_10 => exact h.ifElse t
  case h_11 => exact .throw _

end

theorem Embeds.primary (room : Nat) : Embeds (primary room) := by
  induction room with
  | zero =>
    refine (Embeds.advance _).bind fun t => ?_
    -- the level that finds no room is left open
    exact ⟨fun _ _ _ => rfl, fun _ => rfl, fun c => Nat.le_succ c.depth⟩
  | succ room ih => exact (Embeds.advance _).bind fun t => (ih.primaryAfter t).nested

/-! ## The token behind -/

/-- A success that leaves a token ahead is decided by what has been read and that token. -/
def Foresees (p : Parse α) : Prop :=
  ∀ c a c' t rest, p c = .ok a c' → c'.ahead = t :: rest →
    ∃ read, c.ahead = read ++ t :: rest ∧ c' = c.over read (t :: rest) ∧
      ∀ d rest', d.ahead = read ++ t :: rest' → p d = .ok a (d.over read (t :: rest'))

/-- What is local with whatever room has only one token to look at. -/
theorem Foresees.of_localAt {p : Parse α} (h : ∀ room c, LocalAt (fun _ => p) room c) :
    Foresees p := by
  intro c a c' t rest hrun hahead
  have hlocal : Explains (fun _ => p) c (p c) := h 0 c
  rw [hrun] at hlocal
  obtain ⟨read, hc, hover, haccepts⟩ := hlocal
  rw [hahead] at hc hover haccepts
  exact ⟨read, hc, hover, fun d rest' hd => haccepts read.length d _ (Nat.le_refl _) hd rfl⟩

theorem Starves.advance (expected : List TokenKind) :
    Starves (fun _ => advance expected) [] expected := by
  rintro room ⟨passed, ahead, depth⟩ _ rfl
  exact advance_nil expected rfl

theorem LocalAt.advance (expected : List TokenKind) {room : Nat} {c : Cursor} :
    LocalAt (fun _ => advance expected) room c := by
  cases hc : c.ahead with
  | nil => exact .of_starves hc (advance_nil expected hc) (Starves.advance expected)
  | cons t rest =>
    exact .of_accepts [t] rest hc (advance_cons expected hc) fun _ _ _ _ hd _ =>
      advance_cons expected hd

/-- Primary expressions are local also where all have the same room. -/
theorem LocalAt.primary_const (n room : Nat) (c : Cursor) :
    LocalAt (fun _ => Parse.primary n) room c := by
  have hstarves : ∀ n, Starves (fun _ => Parse.primary n) [] TokenKind.primaryStart :=
    fun n _ d _ hd => Starves.primary_start n d (Nat.zero_le n) hd
  induction n generalizing c with
  | zero =>
    cases hc : c.ahead with
    | nil => exact .of_starves hc (primary_nil 0 hc) (hstarves 0)
    | cons t rest =>
      show Explains _ c (Parse.primary 0 c)
      rw [primary_zero hc]
      trivial
  | succ n ih =>
    cases hc : c.ahead with
    | nil => exact .of_starves hc (primary_nil (n + 1) hc) (hstarves (n + 1))
    | cons t rest =>
      by_cases ht : t.kind ∈ TokenKind.primaryStart
      · refine LocalAt.bind (LocalAt.advance _) fun u c' hrun => ?_
        cases (advance_cons _ hc).symm.trans hrun
        exact LocalAt.nested (LocalAt.primaryAfter (fun _ => Advances.primary n) ih ht) _
      · have hrejects : Rejects (fun _ => Parse.primary (n + 1)) [] t TokenKind.primaryStart :=
          fun _ d rest _ hd => Rejects.primary_start ht (n + 1) d rest (Nat.succ_pos n) hd
        exact .of_rejects [] rest hc (hrejects 1 c rest Nat.one_pos hc) hrejects

section

variable {p : Parse α}

theorem Foresees.map (h : Foresees p) (g : α → β) : Foresees (p >>= fun a => Pure.pure (g a)) := by
  intro c b c' t rest hrun hahead
  obtain ⟨a, c₁, hp, hrun⟩ := exists_of_bind_ok hrun
  cases hrun
  obtain ⟨read, hc, hover, hall⟩ := h c a c' t rest hp hahead
  exact ⟨read, hc, hover, fun d rest' hd => bind_ok (hall d rest' hd)⟩

theorem Foresees.check (kinds : List TokenKind) :
    Foresees (get >>= fun c => Pure.pure (Answer.truth (c.check kinds))) := by
  rintro c b c' t rest ⟨⟩ hahead
  have hover : c = c.over [] (t :: rest) := by rw [← hahead]; rfl
  refine ⟨[], hahead, hover, fun d rest' hd => ?_⟩
  have hcheck : d.check kinds = c.check kinds := by
    simp [Cursor.check, Cursor.current?, hd, hahead]
  show EStateM.Result.ok (Answer.truth (d.check kinds)) d = _
  rw [hcheck, ← List.nil_append (t :: rest'), ← hd]
  rfl

end

section

variable {p : Parse Node}

theorem blockBody_apply (p : Parse Node) (c : Cursor) :
    blockBody p c = (statements p >>= fun (exprs, ret) => Pure.pure (Node.block
      (match c.current? with | some t => t.position | none => ⟨0, 0⟩) exprs ret)) c := rfl

/-- The first token of a block is one that has been read, or it is the one behind. -/
theorem Foresees.blockBody (h : Foresees (statements p)) : Foresees (blockBody p) := by
  intro c tree c' t rest hrun hahead
  rw [blockBody_apply] at hrun
  obtain ⟨read, hc, hover, hall⟩ := h.map _ c tree c' t rest hrun hahead
  refine ⟨read, hc, hover, fun d rest' hd => ?_⟩
  have hcurrent : d.current? = c.current? := by
    simp [Cursor.current?, hc, hd, List.head?_append]
  rw [blockBody_apply, hcurrent]
  exact hall d rest' hd

/-- A program leaves no token ahead. -/
theorem Foresees.program : Foresees (program p) := by
  intro c tree c' t rest hrun hahead
  rw [program_run] at hrun
  split at hrun
  · cases hrun
  · split at hrun
    · rename_i hnil
      cases hrun
      cases hnil.symm.trans hahead
    · cases hrun

end

/-! ## Calls -/

/-- The call is a step that is given the primary expressions it has room for. -/
structure Call.Steps (call : Call) (step : Parse Node → Parse Answer) : Prop where
  run_eq : ∀ maxDepth c, call.run maxDepth c = step (Parse.primary (c.room maxDepth)) c
  embeds : ∀ n, Embeds (step (Parse.primary n))
  foresees : ∀ n, Foresees (step (Parse.primary n))

section

variable {call : Call} {answer : α → Answer}

theorem Call.exists_steps_of_within {step : Parse Node → Parse α}
    (hrun : ∀ maxDepth, call.run maxDepth = within maxDepth step >>= fun a => Pure.pure (answer a))
    (hembeds : ∀ n, Embeds (step (Parse.primary n)))
    (hlocal : ∀ n, Foresees (step (Parse.primary n))) : ∃ step, call.Steps step := by
  refine ⟨fun p => step p >>= fun a => Pure.pure (answer a), fun maxDepth c => ?_,
    fun n => (hembeds n).bind fun _ => .pure _, fun n => (hlocal n).map answer⟩
  rw [hrun]
  rfl

theorem Call.exists_steps_of_token {step : Parse α}
    (hrun : ∀ maxDepth, call.run maxDepth = step >>= fun a => Pure.pure (answer a))
    (hembeds : Embeds step) (hlocal : Foresees step) : ∃ step, call.Steps step := by
  refine ⟨fun _ => step >>= fun a => Pure.pure (answer a), fun maxDepth c => ?_,
    fun _ => hembeds.bind fun _ => .pure _, fun _ => hlocal.map answer⟩
  rw [hrun]

end

theorem Call.exists_steps (call : Call) : ∃ step, call.Steps step := by
  have he := Embeds.primary
  have ha := fun n (_ : Nat) => Advances.primary n
  have hl := LocalAt.primary_const
  have h₄ := fun n room c => LocalAt.chained 4 (ha n) (hl n room) c
  have h₃ := fun n room c => LocalAt.chained 3 (fun _ => (ha n room).chained) (h₄ n room) c
  have h₂ := fun n room c => LocalAt.chained 2 (fun _ => (ha n room).chained.chained) (h₃ n room) c
  have h₁ := fun n room c => LocalAt.expression (ha n) (hl n room) c
  cases call with
  | advance expected =>
    exact exists_steps_of_token (fun _ => rfl) (.advance expected)
      (.of_localAt fun _ _ => .advance expected)
  | expect kind =>
    exact exists_steps_of_token (fun _ => rfl) (.expect kind) (.of_localAt fun _ _ => .expect kind)
  | accept kinds =>
    exact exists_steps_of_token (fun _ => rfl) (.acceptAs _) (.of_localAt fun _ _ => .acceptAs _)
  | check kinds =>
    exact ⟨fun _ => Call.run 0 (.check kinds), fun _ _ => rfl,
      fun _ => .get_bind (fun _ => .pure _) fun _ _ => rfl, fun _ => .check kinds⟩
  | program =>
    exact exists_steps_of_within (fun _ => rfl) (fun n => (he n).program) fun n => .program
  | blockBody =>
    exact exists_steps_of_within (fun _ => rfl) (fun n => (he n).blockBody) fun n =>
      (Foresees.of_localAt fun room c => LocalAt.statements (ha n) (hl n room) c).blockBody
  | expression =>
    exact exists_steps_of_within (fun _ => rfl) (fun n => (he n).expression) fun n =>
      .of_localAt (h₁ n)
  | equality =>
    exact exists_steps_of_within (fun _ => rfl) (fun n => (he n).expression) fun n =>
      .of_localAt (h₁ n)
  | relational =>
    exact exists_steps_of_within (fun _ => rfl) (fun n => (he n).relational) fun n =>
      .of_localAt (h₂ n)
  | additive =>
    exact exists_steps_of_within (fun _ => rfl) (fun n => (he n).additive) fun n =>
      .of_localAt (h₃ n)
  | multiplicative =>
    exact exists_steps_of_within (fun _ => rfl) (fun n => (he n).multiplicative) fun n =>
      .of_localAt (h₄ n)
  | primary =>
    exact exists_steps_of_within (fun _ => rfl) he fun n => .of_localAt (hl n)
  | arguments =>
    exact exists_steps_of_within (fun _ => rfl) (fun n => (he n).arguments) fun n =>
      .of_localAt fun room c => LocalAt.arguments (ha n) (hl n room) c
  | userVar dollar =>
    exact exists_steps_of_within (fun _ => rfl) (fun n => (he n).userVar dollar) fun n =>
      .of_localAt fun room c => LocalAt.userVar (ha n) (hl n room) dollar c
  | ifElse word =>
    exact exists_steps_of_within (fun _ => rfl) (fun n => (he n).ifElse word) fun n =>
      .of_localAt fun room c => LocalAt.ifElse (ha n) (hl n room) word c

/-- A call before the end of the tokens does what it would do if nothing had been passed and nothing
were open, with what is left of the limit: it answers the same or fails with the same error, and the
cursor moves as far. If it succeeds and leaves a token ahead, then all that matters is what has been
read and that token. Wherever else they are ahead, with as much left of the limit, the answer is the
same and the same is read. -/
theorem Call.run_inside (maxDepth : Int) (call : Call) (c : Cursor) (h : c.ahead ≠ []) :
    call.run maxDepth c = outcomeInside c (call.run (maxDepth - c.depth) (.ofTokens c.ahead)) ∧
    ∀ answer c' t rest, call.run maxDepth c = .ok answer c' → c'.ahead = t :: rest →
      ∃ read, c.ahead = read ++ t :: rest ∧ c' = c.over read (t :: rest) ∧
        ∀ (limit : Int) (d : Cursor) (rest' : List Token), d.ahead = read ++ t :: rest' →
          limit - d.depth = maxDepth - c.depth →
            call.run limit d = .ok answer (d.over read (t :: rest')) := by
  obtain ⟨step, hrun, hembeds, hforesees⟩ := call.exists_steps
  refine ⟨?_, fun answer c' t rest hc hahead => ?_⟩
  · have htokens : (Cursor.ofTokens c.ahead).tokens ≠ [] := h
    have hinside := (hembeds (c.room maxDepth)).inside c (.ofTokens c.ahead) htokens
    have hroom : (Cursor.ofTokens c.ahead).room (maxDepth - c.depth) = c.room maxDepth :=
      (Cursor.room_inside maxDepth (.ofTokens c.ahead) c).symm
    rwa [Cursor.ofTokens_inside, ← hrun, ← hroom, ← hrun] at hinside
  · rw [hrun] at hc
    obtain ⟨read, hread, hover, hall⟩ := hforesees _ c answer c' t rest hc hahead
    refine ⟨read, hread, hover, fun limit d rest' hd hlimit => ?_⟩
    have hroom : d.room limit = c.room maxDepth := congrArg Int.toNat hlimit
    rw [hrun, hroom]
    exact hall d rest' hd

/-- In `(a + b) * c` the sum behind the parenthesis is read as in `a + b)`, at any depth that leaves as
much of the limit. -/
theorem Call.run_inside_sum :
    let name (x : String) : Token := .bare .identifier (.text x)
    let sum := [name "a", .bare .plus, name "b"]
    let c : Cursor := ⟨[.bare .leftParen], sum ++ [.bare .rightParen, .bare .star, name "c"], 1⟩
    let d : Cursor := ⟨[], sum ++ [.bare .rightParen], 7⟩
    let tree : Node := .math .first .add (.var .first (.text "a")) (.var .first (.text "b"))
    c.ahead ≠ [] ∧
      Call.expression.run 2 c = outcomeInside c (Call.expression.run 1 (.ofTokens c.ahead)) ∧
      Call.expression.run 2 c =
        .ok (.tree tree) (c.over sum [.bare .rightParen, .bare .star, name "c"]) ∧
      Call.expression.run 8 d = .ok (.tree tree) (d.over sum [.bare .rightParen]) := by
  intro name sum c d tree
  have hne : c.ahead ≠ [] := List.cons_ne_nil _ _
  have hrun : Call.expression.run 2 c =
      .ok (.tree tree) (c.over sum [.bare .rightParen, .bare .star, name "c"]) := rfl
  obtain ⟨hinside, hlocal⟩ := Call.run_inside 2 .expression c hne
  obtain ⟨read, hread, -, hall⟩ := hlocal _ _ _ _ hrun rfl
  obtain rfl : sum = read := List.append_cancel_right hread
  exact ⟨hne, hinside, hrun, hall 8 d [] rfl rfl⟩

end Parse

end ExprFront
