import ExprFront.Proofs.Grammar.Earliest
import ExprFront.Proofs.Grammar.Reporting

/-!
# The limit of nesting

A program is parsed to the same tree under every limit that is at least as large as its nesting is
deep, and under no smaller one. Whatever the tokens, a limit changes nothing but that parsing may
stop earlier: at the first token that is asked for as the beginning of a primary expression while as
many as the limit are open.
-/

namespace ExprFront

open Parse

/-! ## Programs -/

/-- A primary expression is open in every phrase but a row of no arguments. -/
theorem Nests.pos {tokens : List Token} {phrase : Phrase} {n : Nat} (h : Nests tokens phrase n)
    (hphrase : ∀ args, phrase ≠ .arguments args) : 0 < n := by
  induction h <;> grind

/-- Statements that are read with so much room, and make up all of the tokens, are parsed under every
limit of at least as much, and under no other. -/
theorem ReadsStatementsWithin.parse {tokens : List Token} {exprs : List Node} {last : Node} {n : Nat}
    (h : ReadsStatementsWithin n tokens exprs last) (hpos : 0 < n) (d : Int) :
    (n ≤ d → parse d tokens = .ok (.block
      ((Cursor.ofTokens tokens).current?.elim .nowhere Token.position) exprs last)) ∧
    (d < n → ∃ t, parse d tokens = .error (.nestingTooDeep t)) := by
  -- the end of the tokens stops statements
  obtain ⟨henough, hlack⟩ := h none (Stops.at_end 1 true) Follows.at_end (by rintro t ⟨⟩)
    d.toNat (.ofTokens tokens) [] (List.append_nil tokens).symm rfl
  rw [parse_eq, program_apply]
  refine ⟨fun hd => ?_, fun hd => ?_⟩
  · have hrun : statements (primary d.toNat) (.ofTokens tokens) = _ := henough (by omega)
    rw [hrun]
    rfl
  · obtain ⟨t, c, hrun, -⟩ := hlack (by omega)
    have hrun : statements (primary d.toNat) (.ofTokens tokens) = _ := hrun
    rw [hrun]
    exact ⟨t, rfl⟩

/-- The tokens of a program are parsed under every limit that its nesting does not go beyond, and
under no other. -/
theorem Nests.exists_parse {tokens : List Token} {exprs : List Node} {last : Node} {n : Nat}
    (h : Nests tokens (.statements exprs last) n) :
    ∃ tree, tree.unplaced = (Node.block .first exprs last).unplaced ∧ ∀ d : Int,
      (n ≤ d → parse d tokens = .ok tree) ∧
      (d < n → ∃ t, parse d tokens = .error (.nestingTooDeep t)) := by
  obtain ⟨exprs', last', hexprs, hlast, hread⟩ := h.isReadWithin
  have hpos : 0 < n := h.pos (by rintro args ⟨⟩)
  exact ⟨_, by simp only [Node.unplaced, hexprs, hlast], hread.parse hpos⟩

/-- What is parsed under a limit does not nest beyond it. -/
theorem Nests.le_of_parse {tokens : List Token} {exprs : List Node} {last tree : Node} {n : Nat}
    {d : Int} (h : Nests tokens (.statements exprs last) n) (hparse : parse d tokens = .ok tree) :
    n ≤ d := by
  obtain ⟨_, -, htree⟩ := h.exists_parse
  refine Int.not_lt.1 fun hd => ?_
  obtain ⟨t, hdeep⟩ := (htree d).2 hd
  rw [hparse] at hdeep
  cases hdeep

/-! ## Any tokens -/

/-- The token at the index is asked for as the beginning of a primary expression while so many others
are open. -/
def AsksAt (tokens : List Token) (i m : Nat) : Prop :=
  ∃ t, tokens[i]? = some t ∧ Asks .statements (tokens.take i) t m

/-- No token before this one is asked for while at least so many primary expressions are open. -/
def AsksFirstAt (tokens : List Token) (i m : Nat) : Prop :=
  AsksAt tokens i m ∧ ∀ j m', AsksAt tokens j m' → m ≤ m' → i ≤ j

section

variable {d d' : Int} {tokens read rest : List Token} {t : Token} {c : Cursor} {i m : Nat}

theorem AsksAt.exists_eq (h : AsksAt tokens i m) :
    ∃ read t rest, tokens = read ++ t :: rest ∧ read.length = i ∧ Asks .statements read t m := by
  obtain ⟨t, ht, hasks⟩ := h
  obtain ⟨hi, rfl⟩ := List.getElem?_eq_some_iff.1 ht
  exact ⟨tokens.take i, tokens[i], tokens.drop (i + 1), by simp, by simp; omega, hasks⟩

theorem Asks.asksAt (h : Asks .statements read t m) (rest : List Token) :
    AsksAt (read ++ t :: rest) read.length m :=
  ⟨t, by simp, by simpa using h⟩

/-- A limit stops a parse at a token that is asked for when the limit is reached. -/
theorem exists_asks (h : within d program (.ofTokens tokens) = .error (.nestingTooDeep t) c) :
    ∃ read, tokens = read ++ t :: c.ahead ∧ c.index = read.length + 1 ∧
      Asks .statements read t d.toNat := by
  rw [within_program, program_apply] at h
  have hreports := ReportsAt.statements (ReportsAt.primary d.toNat) (.ofTokens tokens)
  cases hrun : statements (primary d.toNat) (.ofTokens tokens) with
  | ok es c' => cases hc : c'.ahead <;> simp [hrun, hc] at h
  | error e c' =>
    rw [hrun] at h
    cases h
    obtain ⟨read, hread, hpassed, hasks⟩ := hreports t c hrun
    exact ⟨read, hread, by simp [Cursor.index, hpassed, Cursor.ofTokens], hasks⟩

/-- A token that is asked for when the limit is reached stops a parse, if it gets so far. -/
theorem Asks.tooDeep (h : Asks .statements read t m) (hd : d.toNat ≤ m) (rest : List Token) :
    ∃ u c, within d program (.ofTokens (read ++ t :: rest)) = .error (.nestingTooDeep u) c ∧
      rest.length ≤ c.ahead.length := by
  obtain ⟨u, c, hrun, hrest⟩ | ⟨⟨⟩, -⟩ := h.chokes (t :: rest)
    (by rintro _ ⟨⟩; exact .inl rfl) d.toNat (.ofTokens (read ++ t :: rest)) hd rfl
  have hrun : statements (primary d.toNat) (.ofTokens (read ++ t :: rest)) = _ := hrun
  rw [within_program, program_apply, hrun]
  exact ⟨u, c, rfl, hrest⟩

/-- The token at which a limit stops a parse is the first that is asked for when the limit is
reached. -/
theorem exists_asksFirstAt
    (h : within d program (.ofTokens tokens) = .error (.nestingTooDeep t) c) :
    ∃ i, tokens[i]? = some t ∧ c.index = i + 1 ∧ AsksFirstAt tokens i d.toNat := by
  obtain ⟨read, hread, hindex, hasks⟩ := exists_asks h
  subst hread
  refine ⟨read.length, by simp, hindex, hasks.asksAt c.ahead, fun j m' hj hm => ?_⟩
  obtain ⟨read', t', rest, heq, rfl, hasks'⟩ := hj.exists_eq
  obtain ⟨u, c', hrun, hrest⟩ := hasks'.tooDeep hm rest
  rw [← heq, h] at hrun
  cases hrun
  have hlength := congrArg List.length heq
  simp only [List.length_append, List.length_cons] at hlength
  omega

/-- Under a larger limit no token before that one is at fault. -/
theorem AsksFirstAt.le_of_error (h : AsksFirstAt tokens i d.toNat) (hd : d ≤ d') {e : ParseError}
    (hrun : within d' program (.ofTokens tokens) = .error e c) {u : Token}
    (hu : e.token? = some u) :
    ∃ j, tokens[j]? = some u ∧ i ≤ j ∧ j ≤ c.index ∧ c.index ≤ j + 1 := by
  cases e with
  | unexpectedEnd position expected => cases hu
  | nestingTooDeep t =>
    cases hu
    obtain ⟨j, hj, hindex, hasks, -⟩ := exists_asksFirstAt hrun
    exact ⟨j, hj, h.2 j _ hasks (by omega), by omega, by omega⟩
  | unexpectedToken t expected =>
    cases hu
    obtain ⟨read', rest', rfl, -, hstops, hle, hle'⟩ := exists_stopsAt hrun
    refine ⟨read'.length, by simp, Nat.le_of_not_lt fun hlt => ?_, hle, hle'⟩
    -- no program begins with the token at fault, but one does with all before the first asked for
    obtain ⟨t', -, hasks⟩ := h.1
    obtain ⟨more, exprs, last, hderives⟩ := hasks.viable
    have htake : (read' ++ u :: rest').take i =
        read' ++ u :: rest'.take (i - read'.length - 1) := by
      obtain ⟨k, hk⟩ : ∃ k, i - read'.length = k + 1 := ⟨i - read'.length - 1, by omega⟩
      rw [List.take_append, List.take_of_length_le (by omega), hk, List.take_succ_cons,
        Nat.add_sub_cancel]
    rw [htake, List.append_assoc, List.cons_append] at hderives
    exact hstops.not_accepted _ hderives.accepted

/-- What a limit does not stop goes as it does with room for all tokens. -/
theorem within_eq_of_ne
    (h : ∀ t c, within d program (.ofTokens tokens) ≠ .error (.nestingTooDeep t) c) :
    within d program (.ofTokens tokens) =
      program (primary (tokens.length + 1)) (.ofTokens tokens) := by
  rw [within_program, program_apply] at h ⊢
  have hlocal := LocalAt.statements_primary d.toNat (.ofTokens tokens)
  have hrun : statements (primary d.toNat) (.ofTokens tokens) =
      statements (primary (tokens.length + 1)) (.ofTokens tokens) := by
    refine hlocal.eq_of_length_lt (fun t c hrun => ?_) (Nat.lt_succ_self _)
    have hrun : statements (primary d.toNat) (.ofTokens tokens) = _ := hrun
    rw [hrun] at h
    exact h t c rfl
  rw [program_apply, hrun]

/-- A limit that does not stop a parse is of no account, and neither is any larger one. -/
theorem within_eq_of_le (hd : d ≤ d')
    (h : ∀ t c, within d program (.ofTokens tokens) ≠ .error (.nestingTooDeep t) c) :
    within d program (.ofTokens tokens) = within d' program (.ofTokens tokens) := by
  have h' : ∀ t c, within d' program (.ofTokens tokens) ≠ .error (.nestingTooDeep t) c := by
    intro t c hrun
    obtain ⟨read, hread, -, hasks⟩ := exists_asks hrun
    obtain ⟨u, c', hrun', -⟩ := hasks.tooDeep (show d.toNat ≤ d'.toNat by omega) c.ahead
    rw [← hread] at hrun'
    exact h u c' hrun'
  rw [within_eq_of_ne h, within_eq_of_ne h']

end

/-- The limit of nesting is exact. If the tokens are accepted, their derivation is as deep as some
number, and they are parsed to one tree under every limit that is at least this number, while
parsing finds the nesting too deep under every other. Whatever the tokens, a smaller limit leaves the
outcome of a larger one as it is, or it stops the parse: at the first token that is asked for as the
beginning of a primary expression while as many as the limit are open, which is no later than the
token at fault under the larger limit. The caller meets the error of a parse that is stopped unless
the position of that token cannot be written. -/
theorem parse_limits (tokens : List Token) :
    (Accepted tokens → ∃ n exprs last, Nests tokens (.statements exprs last) n) ∧
    (∀ n exprs last, Nests tokens (.statements exprs last) n →
      ∃ tree, tree.unplaced = (Node.block .first exprs last).unplaced ∧ ∀ d : Int,
        (n ≤ d → parseTokens d tokens = .ok tree) ∧
        (d < n → ∃ t, parse d tokens = .error (.nestingTooDeep t) ∧
          parseTokens d tokens = .error (ParseError.nestingTooDeep t).raised)) ∧
    ∀ d d' : Int, d ≤ d' →
      parse d tokens = parse d' tokens ∧ parseTokens d tokens = parseTokens d' tokens ∨
      ∃ i t c, within d program (.ofTokens tokens) = .error (.nestingTooDeep t) c ∧
        parseTokens d tokens = .error (ParseError.nestingTooDeep t).raised ∧
        tokens[i]? = some t ∧ c.index = i + 1 ∧ AsksFirstAt tokens i d.toNat ∧
        ∀ e c', within d' program (.ofTokens tokens) = .error e c' → ∀ u, e.token? = some u →
          ∃ j, tokens[j]? = some u ∧ i ≤ j ∧ j ≤ c'.index ∧ c'.index ≤ j + 1 := by
  refine ⟨fun h => ?_, fun n exprs last h => ?_, fun d d' hd => ?_⟩
  · obtain ⟨_, _, exprs, last, rfl, hderives⟩ := accepted_iff.1 h
    obtain ⟨n, hnests⟩ := hderives.exists_nests
    exact ⟨n, exprs, last, hnests⟩
  · obtain ⟨tree, hunplaced, htree⟩ := h.exists_parse
    refine ⟨tree, hunplaced, fun d => ⟨fun hd => parseTokens_of_ok ((htree d).1 hd), fun hd => ?_⟩⟩
    obtain ⟨t, hdeep⟩ := (htree d).2 hd
    exact ⟨t, hdeep, parseTokens_of_error hdeep⟩
  · by_cases h : ∃ t c, within d program (.ofTokens tokens) = .error (.nestingTooDeep t) c
    · obtain ⟨t, c, hrun⟩ := h
      obtain ⟨i, hi, hindex, hfirst⟩ := exists_asksFirstAt hrun
      refine .inr ⟨i, t, c, hrun, parseTokens_of_error ?_, hi, hindex, hfirst, ?_⟩
      · unfold parse
        rw [hrun]
      · intro e c' hrun' u hu
        exact hfirst.le_of_error hd hrun' hu
    · have heq : parse d tokens = parse d' tokens := by
        unfold parse
        rw [within_eq_of_le hd (by simpa using h)]
      exact .inl ⟨heq, by rw [parseTokens_eq, parseTokens_eq, heq]⟩

/-- In `- ( x )` three primary expressions are open at once, and a limit of two stops at the name. -/
theorem parse_limits_group :
    let tokens : List Token := [.bare .minus, .bare .leftParen, .bare .identifier (.text "x"),
      .bare .rightParen]
    (∃ n exprs last, Nests tokens (.statements exprs last) n) ∧
      (∃ tree, ∀ d : Int, 3 ≤ d → parseTokens d tokens = .ok tree) ∧ AsksFirstAt tokens 2 2 := by
  intro tokens
  obtain ⟨hdepth, hexact, hlimit⟩ := parse_limits tokens
  have hx : Nests [.bare .identifier (.text "x")] (.expression 5 false _) 1 := .var .first rfl
  have hgroup : Nests _ (.expression 5 false _) 2 :=
    .group (l := .bare .leftParen) (r := .bare .rightParen) rfl
      (hx.loosen (Nat.le_refl 1) (by decide)) rfl
  have hnegate : Nests tokens (.expression 5 false _) 3 :=
    .negate (t := .bare .minus) .first rfl hgroup
  have hprogram : Nests tokens (.statements [] _) 3 :=
    (hnegate.loosen (Nat.le_refl 1) (by decide)).last
  obtain ⟨tree, -, htree⟩ := hexact _ _ _ hprogram
  refine ⟨hdepth hprogram.derives.accepted, ⟨tree, fun d => (htree d).1⟩, ?_⟩
  obtain ⟨-, heq⟩ | ⟨i, t, c, hrun, -, -, hindex, hfirst, -⟩ := hlimit 2 3 (by decide)
  · obtain ⟨t, -, hdeep⟩ := (htree 2).2 (by decide)
    rw [hdeep, (htree 3).1 (by decide)] at heq
    cases heq
  · cases (show within 2 program (.ofTokens tokens) = .error _ _ from rfl).symm.trans hrun
    cases hindex
    exact hfirst

/-- A name far to the right is accepted and opens one primary expression; under a limit of none the
caller meets no error of nesting, as it cannot be written. -/
theorem parse_limits_far :
    let x : Token := { Token.bare .identifier (.text "x") with position := ⟨1, Position.farColumn⟩ }
    (∃ exprs last, Nests [x] (.statements exprs last) 1) ∧ (0 : Int) < 1 ∧
      parseTokens 0 [x] = .error .unwritable ∧
      ∀ t, parseTokens 0 [x] ≠ .error (.error (.nestingTooDeep t)) := by
  intro x
  have hx : Nests [x] (.expression 5 false _) 1 := .var .first rfl
  have hrun : parseTokens 0 [x] = .error .unwritable := by
    rw [parseTokens_of_error (show parse 0 [x] = .error (.nestingTooDeep x) from rfl)]
    exact congrArg _ (ParseError.raised_far rfl)
  refine ⟨⟨_, _, (hx.loosen (Nat.le_refl 1) (by decide)).last⟩, by decide, hrun, fun t ht => ?_⟩
  cases hrun.symm.trans ht

end ExprFront
