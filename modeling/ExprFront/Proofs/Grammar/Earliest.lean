import ExprFront.Proofs.Grammar.Continuing
import ExprFront.Proofs.Grammar.Exact

/-!
# Faults are found at once

Parsing stops at the first token that no program goes on with: the tokens before it begin some
program, and with it no longer do. If it is the end that is at fault, more tokens would have made a
program.
-/

namespace ExprFront

open Parse

/-- Parsing the tokens gives a tree whenever there is room enough. -/
def Accepted (tokens : List Token) : Prop :=
  ∃ enough : Int, ∀ maxDepth, enough ≤ maxDepth → ∃ tree, parse maxDepth tokens = .ok tree

/-- The programs are what is accepted. -/
theorem accepted_iff {tokens : List Token} :
    Accepted tokens ↔ ∃ tree, IsProgram tokens tree := by
  constructor
  · rintro ⟨enough, h⟩
    obtain ⟨tree, hparse⟩ := h enough (Int.le_refl enough)
    exact ⟨tree, isProgram_of_parse hparse⟩
  · rintro ⟨tree, h⟩
    refine ⟨tokens.length, fun maxDepth hdepth => ?_⟩
    obtain ⟨tree', hparse, -⟩ := parse_of_isProgram h hdepth
    exact ⟨tree', hparse⟩

/-- Statements are accepted. -/
theorem Derives.accepted {tokens : List Token} {exprs : List Node} {last : Node}
    (h : Derives tokens (.statements exprs last)) : Accepted tokens :=
  accepted_iff.2 ⟨.block .first exprs last, .first, exprs, last, rfl, h⟩

/-- There are kinds to choose from, and with any token of theirs the tokens begin a program. -/
structure Offered (read : List Token) (kinds : List TokenKind) : Prop where
  ne_nil : kinds ≠ []
  accepted : ∀ t : Token, t.kind ∈ kinds → ∃ more, Accepted (read ++ t :: more)

/-- What statements offer to go on with makes programs. -/
theorem Offered.of_offers {read : List Token} {kinds : List TokenKind}
    (h : theStatements.Offers read kinds) : Offered read kinds := by
  refine ⟨h.ne_nil, fun t ht => ?_⟩
  obtain ⟨⟨exprs, last⟩, next, more, hderives⟩ := h.viable t ht
  have hstatements : Derives (read ++ t :: more) (.statements exprs last) := by
    simpa using hderives
  exact ⟨more, hstatements.accepted⟩

/-- Behind complete statements every kind that continues a program is offered. -/
theorem Derives.offered {tokens : List Token} {exprs : List Node} {last : Node}
    (h : Derives tokens (.statements exprs last)) : Offered tokens TokenKind.continuation := by
  refine ⟨by decide, fun t ht => ?_⟩
  obtain ⟨more, exprs', last', hderives⟩ := h.continued ht
  exact ⟨more, hderives.accepted⟩

/-- Where kinds are offered, the tokens so far begin a program. -/
theorem Offered.viable {read : List Token} {kinds : List TokenKind} (h : Offered read kinds) :
    ∃ more, Accepted (read ++ more) := by
  obtain ⟨kind, hkind⟩ := List.exists_mem_of_ne_nil kinds h.ne_nil
  obtain ⟨more, haccepted⟩ := h.accepted (.bare kind) hkind
  exact ⟨_, haccepted⟩

/-! ## Faults that the tokens so far decide -/

/-- Whatever follows, and with room for the tokens so far, parsing stops at the token behind them,
having expected others. -/
def StopsAt (read : List Token) (t : Token) (expected : List TokenKind) : Prop :=
  ∀ rest (maxDepth : Int), read.length < maxDepth →
    parse maxDepth (read ++ t :: rest) = .error (.unexpectedToken t expected)

section

variable {read : List Token} {t : Token} {expected : List TokenKind}

/-- Statements that cannot go on with a token stop a parse there. -/
theorem StopsAt.of_rejects (h : Rejects (fun room => statements (primary room)) read t expected) :
    StopsAt read t expected := by
  intro rest maxDepth hdepth
  have hrun : statements (primary maxDepth.toNat) (.ofTokens (read ++ t :: rest)) = .error _ _ :=
    h maxDepth.toNat (.ofTokens (read ++ t :: rest)) rest (by omega) rfl
  rw [parse_eq, program_apply, hrun]

/-- Statements that end before a token stop a parse there. -/
theorem StopsAt.of_accepts {es : List Node × Node}
    (h : Accepts (fun room => statements (primary room)) read (some t) es) :
    StopsAt read t TokenKind.continuation := by
  intro rest maxDepth hdepth
  have hrun : statements (primary maxDepth.toNat) (.ofTokens (read ++ t :: rest)) = .ok es _ :=
    h maxDepth.toNat (.ofTokens (read ++ t :: rest)) (t :: rest) (by omega) rfl rfl
  rw [parse_eq, program_apply, hrun]
  rfl

/-- What parsing stops at, however much room there is, is not accepted. -/
theorem StopsAt.not_accepted (h : StopsAt read t expected) (rest : List Token) :
    ¬ Accepted (read ++ t :: rest) := by
  rintro ⟨enough, haccepted⟩
  obtain ⟨tree, hparse⟩ := haccepted (max enough (read.length + 1)) (Int.le_max_left _ _)
  rw [h rest _ (by omega)] at hparse
  cases hparse

end

/-! ## The two faults -/

/-- A parse that stops at a token stops behind tokens that begin a program with each of the others
that it expected, and no token behind the fault has been passed over. -/
theorem exists_offered {maxDepth : Int} {tokens : List Token} {t : Token}
    {expected : List TokenKind} {c : Cursor}
    (h : within maxDepth program (.ofTokens tokens) = .error (.unexpectedToken t expected) c) :
    ∃ read rest, tokens = read ++ t :: rest ∧ Offered read expected ∧
      StopsAt read t expected ∧ read.length ≤ c.index ∧ c.index ≤ read.length + 1 := by
  have hlocal := LocalAt.statements_primary maxDepth.toNat (.ofTokens tokens)
  have hmeets := (Tracks.statements_primary maxDepth.toNat (.ofTokens tokens)).meets
  unfold LocalAt at hlocal
  rw [within_program, program_apply] at h
  cases hrun : statements (primary maxDepth.toNat) (.ofTokens tokens) with
  | error e c' =>
    simp only [hrun, EStateM.Result.error.injEq] at h hlocal hmeets
    obtain ⟨rfl, rfl⟩ := h
    obtain ⟨read, hread, hover, hrejects⟩ := hlocal
    obtain ⟨read', hread', hoffers⟩ := hmeets
    -- both accounts of the fault are of the same tokens, as the same are left
    obtain rfl : read' = read := List.append_cancel_right (hread'.symm.trans hread)
    have hindex : c'.index = read'.length + 1 := by
      rw [hover]
      simp [Cursor.index, Cursor.over, Cursor.ofTokens]
    exact ⟨read', c'.ahead, hread', .of_offers hoffers, .of_rejects hrejects, by omega, by omega⟩
  | ok es c' =>
    obtain ⟨exprs, last⟩ := es
    simp only [hrun] at h hlocal hmeets
    cases hc : c'.ahead with
    | nil => simp [hc] at h
    | cons u rest =>
      simp only [hc, EStateM.Result.error.injEq, ParseError.unexpectedToken.injEq] at h
      obtain ⟨⟨rfl, rfl⟩, rfl⟩ := h
      obtain ⟨read, hread, hover, haccepts⟩ := hlocal
      obtain ⟨read', hread', hderives⟩ := hmeets
      obtain rfl : read' = read := List.append_cancel_right (hread'.symm.trans hread)
      -- the statements are complete here, and the token behind them is only looked at
      have hindex : c'.index = read'.length := by
        rw [hover]
        simp [Cursor.index, Cursor.over, Cursor.ofTokens]
      rw [hc] at hread' haccepts
      exact ⟨read', rest, hread', Derives.offered hderives, .of_accepts haccepts, by omega,
        by omega⟩

/-- A parse that stops at a token stops at the first one with which the tokens begin no program. -/
theorem exists_stopsAt {maxDepth : Int} {tokens : List Token} {t : Token}
    {expected : List TokenKind} {c : Cursor}
    (h : within maxDepth program (.ofTokens tokens) = .error (.unexpectedToken t expected) c) :
    ∃ read rest, tokens = read ++ t :: rest ∧ (∃ more, Accepted (read ++ more)) ∧
      StopsAt read t expected ∧ read.length ≤ c.index ∧ c.index ≤ read.length + 1 := by
  obtain ⟨read, rest, htokens, hoffered, hstops, hle, hle'⟩ := exists_offered h
  exact ⟨read, rest, htokens, hoffered.viable, hstops, hle, hle'⟩

/-- A parse that needs more tokens has read no program, but the beginning of one for each of those
that it expected. -/
theorem offered_of_unexpectedEnd {maxDepth : Int} {tokens : List Token} {position : Position}
    {expected : List TokenKind}
    (h : parse maxDepth tokens = .error (.unexpectedEnd position expected)) :
    ¬ Accepted tokens ∧ Offered tokens expected := by
  have hlocal := LocalAt.statements_primary maxDepth.toNat (.ofTokens tokens)
  have hmeets := (Tracks.statements_primary maxDepth.toNat (.ofTokens tokens)).meets
  unfold LocalAt at hlocal
  rw [parse_eq, program_apply] at h
  cases hrun : statements (primary maxDepth.toNat) (.ofTokens tokens) with
  | ok es c =>
    cases hc : c.ahead <;> simp [hrun, hc] at h
  | error e c =>
    simp only [hrun, Except.error.injEq] at h hlocal hmeets
    subst h
    refine ⟨?_, .of_offers hmeets⟩
    -- more room does not help
    rintro ⟨enough, haccepted⟩
    obtain ⟨tree, hparse⟩ := haccepted (max enough tokens.length) (Int.le_max_left _ _)
    have hstarves : statements (primary (max enough tokens.length).toNat) (.ofTokens tokens) =
        .error _ _ :=
      hlocal.2.2 _ (.ofTokens tokens) (show tokens.length ≤ _ by omega) rfl
    rw [parse_eq, program_apply, hstarves] at hparse
    cases hparse

/-- A parse that needs more tokens has read the beginning of a program, and no program. -/
theorem accepted_of_unexpectedEnd {maxDepth : Int} {tokens : List Token} {position : Position}
    {expected : List TokenKind}
    (h : parse maxDepth tokens = .error (.unexpectedEnd position expected)) :
    ¬ Accepted tokens ∧ ∃ more, Accepted (tokens ++ more) := by
  obtain ⟨hnot, hoffered⟩ := offered_of_unexpectedEnd h
  exact ⟨hnot, hoffered.viable⟩

/-- Parsing finds a fault as early as can be. If it stops at a token, the tokens before it begin an
accepted program, none that is accepted begins with them and the token, no token behind it has been
passed over, and whatever follows the fault is the same. If it stops at the end, the tokens are no
program but begin one. -/
theorem parse_earliest (maxDepth : Int) (tokens : List Token) :
    (∀ t expected, parse maxDepth tokens = .error (.unexpectedToken t expected) →
      ∃ i c, within maxDepth program (.ofTokens tokens) = .error (.unexpectedToken t expected) c ∧
        i ≤ c.index ∧ c.index ≤ i + 1 ∧ tokens[i]? = some t ∧
        (∃ more, Accepted (tokens.take i ++ more)) ∧
        (∀ more, ¬ Accepted (tokens.take (i + 1) ++ more)) ∧
        ∀ more (maxDepth' : Int), i < maxDepth' →
          parse maxDepth' (tokens.take (i + 1) ++ more) =
            .error (.unexpectedToken t expected)) ∧
    ∀ position expected, parse maxDepth tokens = .error (.unexpectedEnd position expected) →
      ¬ Accepted tokens ∧ ∃ more, Accepted (tokens ++ more) := by
  constructor
  · intro t expected h
    obtain ⟨c, hrun⟩ : ∃ c, within maxDepth program (.ofTokens tokens) =
        .error (.unexpectedToken t expected) c := by
      unfold parse at h
      split at h <;> cases h
      exact ⟨_, by assumption⟩
    obtain ⟨read, rest, rfl, hviable, hstops, hle, hle'⟩ := exists_stopsAt hrun
    have htake : (read ++ t :: rest).take (read.length + 1) = read ++ [t] := by
      simp [List.take_append, List.take_of_length_le]
    refine ⟨read.length, c, hrun, hle, hle', by simp, by simpa using hviable, ?_, ?_⟩
    · intro more
      rw [htake, List.append_assoc]
      exact hstops.not_accepted more
    · intro more maxDepth' hi
      rw [htake, List.append_assoc]
      exact hstops more maxDepth' hi
  · intro position expected h
    exact accepted_of_unexpectedEnd h

/-- `x +` is no program but begins one, and `x + )` begins none. -/
theorem parse_earliest_sum :
    let sum : List Token := [.bare .identifier (.text "x"), .bare .plus]
    (¬ Accepted sum ∧ ∃ more, Accepted (sum ++ more)) ∧
      ∀ more, ¬ Accepted (sum ++ .bare .rightParen :: more) := by
  intro sum
  refine ⟨(parse_earliest 3 sum).2 _ _ rfl, ?_⟩
  obtain ⟨i, c, -, -, -, hi, -, hdead, -⟩ :=
    (parse_earliest 4 (sum ++ [.bare .rightParen])).1 _ _ rfl
  match i, hi with
  | 2, _ => exact hdead

end ExprFront
