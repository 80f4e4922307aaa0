import ExprFront.Proofs.Grammar.Limit

/-!
# What an error expects

An error names the kinds of tokens that could have stood at the fault. With any of them in its place
the tokens so far begin a program, so parsing gets over it. What remains is the limit of nesting: a
token that is asked for as the beginning of a primary expression has been in its place before, unless
the tokens had come to their end.
-/

namespace ExprFront

open Parse

/-- Parsing fails at none of the tokens: it gives a tree or needs more of them. -/
def GoesOn (d : Int) (tokens : List Token) : Prop :=
  (∃ tree, parse d tokens = .ok tree) ∨
    ∃ position expected, parse d tokens = .error (.unexpectedEnd position expected)

section

variable {d : Int} {read rest : List Token} {t x : Token} {e : ParseError} {c : Cursor}
  {kinds expected : List TokenKind}

/-- A parse that the limit does not stop has asked for no token while the limit was reached. -/
theorem not_asks_of_error (hrun : within d program (.ofTokens (read ++ t :: rest)) = .error e c)
    (he : ∀ u, e ≠ .nestingTooDeep u) : ¬ Asks .statements read t d.toNat := by
  intro hasks
  obtain ⟨u, c', hdeep, -⟩ := hasks.tooDeep (Nat.le_refl _) rest
  rw [hrun] at hdeep
  cases hdeep
  exact he u rfl

/-- Behind tokens that are read under the limit, a token that is offered is got over, unless it is
asked for while the limit is reached. -/
theorem Offered.goesOn_or (h : Offered read kinds) (hx : x.kind ∈ kinds)
    (hread : ∀ before u behind, read = before ++ u :: behind → ¬ Asks .statements before u d.toNat) :
    GoesOn d (read ++ [x]) ∨
      ∃ c, within d program (.ofTokens (read ++ [x])) = .error (.nestingTooDeep x) c ∧
        c.index = read.length + 1 ∧ Asks .statements read x d.toNat := by
  cases hparse : parse d (read ++ [x]) with
  | ok tree => exact .inl (.inl ⟨tree, hparse⟩)
  | error e =>
    obtain ⟨c, hrun⟩ := exists_within_of_error hparse
    cases e with
    | unexpectedEnd position expected => exact .inl (.inr ⟨position, expected, hparse⟩)
    | unexpectedToken u expected =>
      -- some program begins with the tokens and the one that is offered, so none is at fault
      obtain ⟨before, behind, htokens, -, hstops, -⟩ := exists_stopsAt hrun
      obtain ⟨more, haccepted⟩ := h.accepted x hx
      refine absurd ?_ (hstops.not_accepted (behind ++ more))
      rw [← List.cons_append, ← List.append_assoc, ← htokens]
      simpa using haccepted
    | nestingTooDeep u =>
      obtain ⟨before, htokens, hindex, hasks⟩ := exists_asks hrun
      -- the limit stops at the last token, as it has not stopped at one before
      obtain ⟨hahead, hbefore⟩ | ⟨behind, -, hbefore⟩ : (c.ahead = [] ∧ before ++ [u] = read ++ [x]) ∨
          ∃ behind, c.ahead = behind ++ [x] ∧ read = before ++ u :: behind := by
        obtain hahead | ⟨behind, y, hahead⟩ := List.eq_nil_or_concat c.ahead
        · exact .inl ⟨hahead, by rw [htokens, hahead]⟩
        · rw [hahead, List.concat_eq_append, ← List.cons_append, ← List.append_assoc] at htokens
          obtain ⟨hbefore, hlast⟩ := List.append_inj' htokens rfl
          exact .inr ⟨behind, by rw [hahead, List.concat_eq_append, hlast], hbefore⟩
      · obtain ⟨rfl, hlast⟩ := List.append_inj' hbefore rfl
        obtain rfl : u = x := by simpa using hlast
        exact .inr ⟨c, hrun, hindex, hasks⟩
      · exact absurd hasks (hread before u behind hbefore)

/-- At a token that does not continue the tokens read, others that could have do. -/
theorem Offered.goesOn (h : Offered read kinds) (hx : x.kind ∈ kinds)
    (hdead : ∀ more, ¬ Accepted (read ++ t :: more))
    (hrun : within d program (.ofTokens (read ++ t :: rest)) = .error e c)
    (he : ∀ u, e ≠ .nestingTooDeep u) : GoesOn d (read ++ [x]) := by
  obtain hgoes | ⟨-, -, -, hasks⟩ := h.goesOn_or (d := d) hx (by
    rintro before u behind rfl
    rw [List.append_assoc] at hrun
    exact not_asks_of_error hrun he)
  · exact hgoes
  -- where the other is asked for, the token at fault is as well
  · obtain ⟨more, exprs, last, hderives⟩ | hasks := hasks.exchange t
    · refine absurd (Derives.accepted hderives) ?_
      rw [List.append_assoc]
      exact hdead more
    · exact absurd hasks (not_asks_of_error hrun he)

/-- Where the tokens end while a primary expression is asked for, the beginning of one is what is
expected. -/
theorem Asks.expected_eq (h : Asks .statements read x d.toNat) {position : Position}
    (hparse : parse d read = .error (.unexpectedEnd position expected)) :
    expected = TokenKind.primaryStart := by
  have hstuck := h.chokes [] (by rintro _ ⟨⟩) d.toNat (.ofTokens read) (Nat.le_refl _)
    (List.append_nil _).symm
  rw [parse_eq, program_apply] at hparse
  obtain ⟨u, c, hrun, -⟩ | ⟨-, position', c, hrun⟩ := hstuck
  · have hrun : statements (primary d.toNat) (.ofTokens read) = _ := hrun
    rw [hrun] at hparse
    cases hparse
  · have hrun : statements (primary d.toNat) (.ofTokens read) = _ := hrun
    rw [hrun] at hparse
    cases hparse
    rfl

end

/-- The caller of a parse that goes on gets a tree, or meets the end of the tokens, unless the position
behind them cannot be written. -/
def MeetsEnd (d : Int) (tokens : List Token) : Prop :=
  (∃ tree, parseTokens d tokens = .ok tree) ∨
    ∃ position expected, parse d tokens = .error (.unexpectedEnd position expected) ∧
      parseTokens d tokens = .error (ParseError.unexpectedEnd position expected).raised

theorem GoesOn.meetsEnd {d : Int} {tokens : List Token} (h : GoesOn d tokens) :
    MeetsEnd d tokens := by
  obtain ⟨tree, hparse⟩ | ⟨position, expected, hparse⟩ := h
  · exact .inl ⟨tree, parseTokens_of_ok hparse⟩
  · exact .inr ⟨position, expected, hparse, parseTokens_of_error hparse⟩

/-- What an error expects is sound. It is never nothing, and the token at fault is none of it. With
any token that is expected in the place of the fault, and nothing behind it, parsing under the same
limit fails at no token: it gives a tree or needs more tokens. Only where the tokens ended and a
primary expression was to begin, the limit of nesting may stop the parse at the new token. An error
of either sort is met by the caller unless its position cannot be written. -/
theorem parse_expected (maxDepth : Int) (tokens : List Token) :
    (∀ t expected, parseTokens maxDepth tokens = .error (.error (.unexpectedToken t expected)) →
      expected ≠ [] ∧ t.kind ∉ expected ∧
      ∃ i c, within maxDepth program (.ofTokens tokens) = .error (.unexpectedToken t expected) c ∧
        i ≤ c.index ∧ c.index ≤ i + 1 ∧ tokens[i]? = some t ∧
        (∀ more, ¬ Accepted (tokens.take (i + 1) ++ more)) ∧
        ∀ x : Token, x.kind ∈ expected →
          (∃ more, Accepted (tokens.take i ++ x :: more)) ∧
          MeetsEnd maxDepth (tokens.take i ++ [x])) ∧
    ∀ position expected,
      parseTokens maxDepth tokens = .error (.error (.unexpectedEnd position expected)) →
      expected ≠ [] ∧ ∀ x : Token, x.kind ∈ expected →
        MeetsEnd maxDepth (tokens ++ [x]) ∨
        expected = TokenKind.primaryStart ∧
          parseTokens maxDepth (tokens ++ [x]) = .error (ParseError.nestingTooDeep x).raised ∧
          ∃ c, within maxDepth program (.ofTokens (tokens ++ [x])) = .error (.nestingTooDeep x) c ∧
            c.index = tokens.length + 1 := by
  constructor
  · intro t expected hraised
    have hparse := (parse_of_parseTokens_error hraised).1
    obtain ⟨c, hrun⟩ := exists_within_of_error hparse
    obtain ⟨read, rest, rfl, hoffered, hstops, hle, hle'⟩ := exists_offered hrun
    have htake : (read ++ t :: rest).take (read.length + 1) = read ++ [t] := by
      simp [List.take_append, List.take_of_length_le]
    have hmember : t.kind ∉ expected := by
      intro hmem
      obtain ⟨more, haccepted⟩ := hoffered.accepted t hmem
      exact hstops.not_accepted more haccepted
    refine ⟨hoffered.ne_nil, hmember, read.length, c, hrun, hle, hle', by simp, ?_, fun x hx => ?_⟩
    · intro more
      rw [htake, List.append_assoc]
      exact hstops.not_accepted more
    · rw [List.take_left]
      exact ⟨hoffered.accepted x hx,
        (hoffered.goesOn hx hstops.not_accepted hrun (by rintro _ ⟨⟩)).meetsEnd⟩
  · intro position expected hraised
    have hparse := (parse_of_parseTokens_error hraised).1
    obtain ⟨c, hrun⟩ := exists_within_of_error hparse
    obtain ⟨-, hoffered⟩ := offered_of_unexpectedEnd hparse
    refine ⟨hoffered.ne_nil, fun x hx => ?_⟩
    obtain hgoes | ⟨c', hdeep, hindex, hasks⟩ := hoffered.goesOn_or (d := maxDepth) hx (by
      rintro before u behind rfl
      exact not_asks_of_error hrun (by rintro _ ⟨⟩))
    · exact .inl hgoes.meetsEnd
    · refine .inr ⟨hasks.expected_eq hparse, parseTokens_of_error ?_, c', hdeep, hindex⟩
      unfold parse
      rw [hdeep]

/-- In `f ( x ;` a comma is expected for the semicolon, and with it another argument is missing. In
`( `, with a limit of one, any beginning of a primary expression is expected, but it is too deep. -/
theorem parse_expected_argument :
    let call : List Token := [.bare .identifier (.text "f"), .bare .leftParen,
      .bare .identifier (.text "x")]
    MeetsEnd 2 (call ++ [.bare .comma]) ∧
      ∀ x : Token, x.kind ∈ TokenKind.primaryStart →
        MeetsEnd 1 [.bare .leftParen, x] ∨
          parseTokens 1 [.bare .leftParen, x] = .error (ParseError.nestingTooDeep x).raised := by
  intro call
  have hwritable : Position.first.isWritable = true := by decide +kernel
  constructor
  · have hraised : parseTokens 2 (call ++ [.bare .semicolon]) =
        .error (.error (.unexpectedToken (.bare .semicolon) [.comma])) := by
      rw [parseTokens_of_error (show parse 2 (call ++ [.bare .semicolon]) = .error _ from rfl)]
      exact congrArg _ (ParseError.raised_of_isWritable hwritable)
    obtain ⟨-, -, i, c, hrun, hle, hle', hfault, -, hexpected⟩ :=
      (parse_expected 2 (call ++ [.bare .semicolon])).1 _ _ hraised
    cases (show within 2 program (.ofTokens (call ++ [.bare .semicolon])) = .error _ _ from
      rfl).symm.trans hrun
    match i with
    | 3 => exact (hexpected (.bare .comma) (by decide)).2
    | 4 => exact absurd hfault (by decide)
  · intro x hx
    have hraised : parseTokens 1 [.bare .leftParen] =
        .error (.error (.unexpectedEnd .first TokenKind.primaryStart)) := by
      rw [parseTokens_of_error (show parse 1 [.bare .leftParen] = .error _ from rfl)]
      exact congrArg _ (ParseError.raised_of_isWritable hwritable)
    obtain ⟨-, hexpected⟩ := (parse_expected 1 [.bare .leftParen]).2 _ _ hraised
    exact (hexpected x hx).imp_right fun h => h.2.1

/-- Where nothing has been read a minus sign is expected, but behind one far to the right the caller
meets no end of the tokens, as it cannot be written. -/
theorem parse_expected_far :
    let x : Token := { Token.bare .minus with position := ⟨1, Position.farColumn⟩ }
    parseTokens 5 [] = .error (.error (.unexpectedEnd .first TokenKind.primaryStart)) ∧
      x.kind ∈ TokenKind.primaryStart ∧ parseTokens 5 [x] = .error .unwritable := by
  intro x
  refine ⟨?_, by decide, ?_⟩
  · rw [parseTokens_of_error (show parse 5 [] = .error _ from rfl)]
    exact congrArg _ (ParseError.raised_of_isWritable (by decide +kernel))
  · have hparse : parse 5 [x] = .error
        (.unexpectedEnd ⟨1, Position.farColumn + (0 - 0)⟩ TokenKind.primaryStart) := rfl
    rw [Int.sub_self, Int.add_zero] at hparse
    rw [parseTokens_of_error hparse]
    exact congrArg _ (ParseError.raised_far rfl)

end ExprFront
