import ExprFront.Proofs.Scan.Division

/-!
# Operations on a scanner

A scanner can be driven one operation at a time, in any order and beyond failures. Whatever is asked
of it, it does nothing but pass over characters ahead and begin tokens. So both places that it
remembers stay those that counting from the beginning of the text gives, and neither moves back.
-/

namespace ExprFront.Scanner

/-! ## Moves -/

/-- The second scanner is the first after it has passed over characters ahead and begun tokens, any
number of times. -/
inductive Moves : Scanner → Scanner → Prop where
  | refl (s : Scanner) : Moves s s
  | pass {s s' : Scanner} {text rest : List Char} (hahead : s.ahead = text ++ rest)
      (h : Moves (s.pass text rest) s') : Moves s s'
  | begin {s s' : Scanner} (h : Moves s.begin s') : Moves s s'

section

variable {s s' s'' : Scanner} {text rest : List Char}

theorem Moves.trans (h : Moves s s') (h' : Moves s' s'') : Moves s s'' := by
  induction h with
  | refl s => exact h'
  | pass hahead _ ih => exact .pass hahead (ih h')
  | begin _ ih => exact .begin (ih h')

theorem Moves.of_pass (hahead : s.ahead = text ++ rest) : Moves s (s.pass text rest) :=
  .pass hahead (.refl _)

theorem Moves.passWhile (p : Char → Bool) (s : Scanner) : Moves s (s.passWhile p) :=
  .of_pass List.takeWhile_append_dropWhile.symm

theorem Moves.skipBlanks (s : Scanner) : Moves s s.skipBlanks :=
  .passWhile isBlank s

theorem Moves.advance (s : Scanner) : Moves s s.advance.2 := by
  unfold Scanner.advance
  split
  · exact .refl s
  · rename_i c rest hahead
    exact .of_pass hahead

theorem Moves.passDecimal (s : Scanner) : Moves s s.passDecimal := by
  have hdigits := Moves.passWhile isDigit s
  unfold Scanner.passDecimal
  dsimp only
  split
  · rename_i point d rest hahead
    split
    · have hpoint : (s.passWhile isDigit).ahead = [point] ++ d :: rest := hahead
      exact hdigits.trans (.pass hpoint (.passWhile isDigit _))
    · exact hdigits
  · exact hdigits

theorem Moves.readNumber (s : Scanner) : Moves s s.readNumber.2 := by
  unfold Scanner.readNumber
  dsimp only
  split
  · exact .passDecimal s
  · exact .passDecimal s

theorem Moves.readWord (s : Scanner) : Moves s s.readWord.2 := by
  unfold Scanner.readWord
  dsimp only
  split
  · exact .passWhile isNamePart s
  · exact .passWhile isNamePart s

theorem Moves.readSign (s : Scanner) (alone doubled : TokenKind) :
    Moves s (s.readSign alone doubled).2 := by
  unfold Scanner.readSign
  split
  · rename_i sign rest hahead
    split
    · exact .of_pass hahead
    · exact .refl s
  · exact .refl s

theorem Moves.readAfter (s : Scanner) (c : Char) : Moves s (s.readAfter c).2 := by
  unfold Scanner.readAfter
  split
  · exact .refl s
  · split
    · exact .readSign s _ _
    · split_ifs
      · exact .readNumber s
      · exact .readWord s
      · exact .refl s

theorem Moves.scanToken (s : Scanner) : Moves s s.scanToken.2 := by
  have hadvance := Moves.advance s.begin
  unfold Scanner.scanToken
  split
  · rename_i c s' hrun
    rw [hrun] at hadvance
    exact .begin (hadvance.trans (.readAfter s' c))
  · rename_i fault s' hrun
    rw [hrun] at hadvance
    exact .begin hadvance

theorem Moves.scanRounds (rounds : Nat) (s : Scanner) : Moves s (s.scanRounds rounds).2 := by
  induction rounds generalizing s with
  | zero => exact .refl s
  | succ rounds ih =>
    have hblanks := Moves.skipBlanks s
    have htoken := Moves.scanToken s.skipBlanks
    unfold Scanner.scanRounds
    dsimp only
    split
    · exact hblanks
    · split <;> rename_i hrun <;> rw [hrun] at htoken
      · exact (hblanks.trans htoken).trans (ih _)
      · exact (hblanks.trans htoken).trans (ih _)
      · exact hblanks.trans htoken

theorem Moves.scan (s : Scanner) : Moves s s.scan.2 :=
  .scanRounds s.ahead.length s

end

/-! ## Places in a text -/

/-- The scanner stands in a text: what it has ahead and the lexeme under way are parts of the text,
and its two places are where counting up to their offsets leads. -/
structure StandsIn (tabSize : Int) (source : List Char) (s : Scanner) : Prop where
  tab : s.tabSize = tabSize
  start_le : s.start.offset ≤ s.here.offset
  here_le : s.here.offset ≤ source.length
  start_position : s.start.position = Position.first.afterAll tabSize (source.take s.start.offset)
  here_position : s.here.position = Position.first.afterAll tabSize (source.take s.here.offset)
  lexeme : s.lexeme = (source.take s.here.offset).drop s.start.offset
  ahead : s.ahead = source.drop s.here.offset

section

variable {tabSize : Int} {source text rest : List Char} {s s' : Scanner}

theorem StandsIn.ofText (tabSize : Int) (source : List Char) :
    StandsIn tabSize source (.ofText tabSize source) where
  tab := rfl
  start_le := Nat.le_refl 0
  here_le := Nat.zero_le _
  start_position := rfl
  here_position := rfl
  lexeme := rfl
  ahead := rfl

theorem StandsIn.begin (h : StandsIn tabSize source s) : StandsIn tabSize source s.begin where
  tab := h.tab
  start_le := Nat.le_refl _
  here_le := h.here_le
  start_position := h.here_position
  here_position := h.here_position
  lexeme := (List.drop_eq_nil_of_le (List.length_take_le _ _)).symm
  ahead := h.ahead

theorem StandsIn.pass (h : StandsIn tabSize source s) (hahead : s.ahead = text ++ rest) :
    StandsIn tabSize source (s.pass text rest) := by
  have hlength : (source.take s.here.offset).length = s.here.offset :=
    List.length_take_of_le h.here_le
  have hlength' : (source.take s.here.offset ++ text).length = s.here.offset + text.length := by
    rw [List.length_append, hlength]
  have hsource : source.take s.here.offset ++ text ++ rest = source := by
    rw [List.append_assoc, ← hahead, h.ahead, List.take_append_drop]
  -- what is passed over comes behind all that is before it
  have hbefore : (source.take s.here.offset ++ text ++ rest).take (s.here.offset + text.length) =
      source.take s.here.offset ++ text := List.take_left' hlength'
  have hbehind : (source.take s.here.offset ++ text ++ rest).drop (s.here.offset + text.length) =
      rest := List.drop_left' hlength'
  rw [hsource] at hbefore hbehind
  refine ⟨h.tab, Nat.le_add_right_of_le h.start_le, ?_, h.start_position, ?_, ?_, hbehind.symm⟩
  · show s.here.offset + text.length ≤ source.length
    rw [← hsource, List.length_append, hlength']
    exact Nat.le_add_right _ _
  · show s.here.position.afterAll s.tabSize text =
      Position.first.afterAll tabSize (source.take (s.here.offset + text.length))
    rw [hbefore, Position.afterAll_append, ← h.here_position, h.tab]
  · rw [lexeme_pass, h.lexeme]
    show _ = (source.take (s.here.offset + text.length)).drop s.start.offset
    rw [hbefore, List.drop_append_of_le_length (by rw [hlength]; exact h.start_le), faces_chars]

theorem Moves.standsIn (h : Moves s s') (hs : StandsIn tabSize source s) :
    StandsIn tabSize source s' := by
  induction h with
  | refl s => exact hs
  | pass hahead _ ih => exact ih (hs.pass hahead)
  | begin _ ih => exact ih hs.begin

/-- Neither place moves back. -/
theorem Moves.offset_le (h : Moves s s') (hs : s.start.offset ≤ s.here.offset) :
    s.start.offset ≤ s'.start.offset ∧ s.here.offset ≤ s'.here.offset := by
  induction h with
  | refl s => exact ⟨Nat.le_refl _, Nat.le_refl _⟩
  | @pass s s' text rest hahead _ ih =>
    obtain ⟨hstart, hhere⟩ := ih (Nat.le_add_right_of_le hs)
    exact ⟨hstart, Nat.le_trans (Nat.le_add_right s.here.offset text.length) hhere⟩
  | begin _ ih =>
    obtain ⟨hstart, hhere⟩ := ih (Nat.le_refl _)
    exact ⟨Nat.le_trans hs hstart, hhere⟩

end

/-! ## Operations -/

/-- What can be asked of a scanner. -/
inductive Operation where
  | advance
  | skipBlanks
  | scanToken
  | readNumber
  | readWord
  | token (kind : TokenKind) (payload : Payload)
  | error (kind : LexErrorKind) (shown : Option String)
  | scan

/-- What an operation leaves behind, whether it succeeds or fails. Making a token or an error of what
is there leaves all as it is. -/
def Operation.run (s : Scanner) : Operation → Scanner
  | .advance => s.advance.2
  | .skipBlanks => s.skipBlanks
  | .scanToken => s.scanToken.2
  | .readNumber => s.readNumber.2
  | .readWord => s.readWord.2
  | .token _ _ => s
  | .error _ _ => s
  | .scan => s.scan.2

/-- What operations leave behind, one after the other. -/
def runAll (s : Scanner) (operations : List Operation) : Scanner :=
  operations.foldl Operation.run s

theorem Moves.run (s : Scanner) (operation : Operation) : Moves s (operation.run s) := by
  cases operation with
  | advance => exact .advance s
  | skipBlanks => exact .skipBlanks s
  | scanToken => exact .scanToken s
  | readNumber => exact .readNumber s
  | readWord => exact .readWord s
  | token kind payload => exact .refl s
  | error kind shown => exact .refl s
  | scan => exact .scan s

theorem Moves.runAll (s : Scanner) (operations : List Operation) :
    Moves s (s.runAll operations) := by
  induction operations generalizing s with
  | nil => exact .refl s
  | cons operation operations ih => exact (Moves.run s operation).trans (ih _)

/-! ## Failures -/

/-- Passing over a character fails at the end of the text only, and then changes nothing. -/
theorem advance_eq (s : Scanner) :
    (s.ahead = [] ∧ s.advance = (.error (s.error .unexpectedEnd none).raised, s)) ∨
      ∃ c rest, s.ahead = c :: rest ∧ s.advance = (.ok c, s.pass [c] rest) := by
  unfold advance
  cases s.ahead with
  | nil => exact .inl ⟨rfl, rfl⟩
  | cons c rest => exact .inr ⟨c, rest, rfl, rfl⟩

/-- Scanning a token fails at the end of the text, where it begins one, and at a character that begins
none, which it passes over. -/
theorem scanToken_eq (s : Scanner) :
    (s.ahead = [] ∧ s.scanToken = (.error (s.begin.error .unexpectedEnd none).raised, s.begin)) ∨
      ∃ c rest, s.ahead = c :: rest ∧ ((∃ t s', s.scanToken = (.ok t, s')) ∨
        s.scanToken = (.error (s.begin.error .unexpectedCharacter (String.singleton c)).raised,
          s.begin.pass [c] rest)) := by
  cases hahead : s.ahead with
  | nil =>
    refine .inl ⟨rfl, ?_⟩
    obtain ⟨-, hadvance⟩ | ⟨c, rest, hcons, -⟩ := advance_eq s.begin
    · unfold scanToken
      rw [hadvance]
    · cases hahead.symm.trans hcons
  | cons c rest =>
    refine .inr ⟨c, rest, rfl, ?_⟩
    obtain ⟨item, text, rest', htext, -, hitem, hrun⟩ := scanToken_spec hahead
    rw [hrun]
    cases hitem with
    | token hlongest hpayload => exact .inl ⟨_, _, rfl⟩
    | error hc hnone =>
      rw [hahead] at hc htext
      cases hc
      cases htext
      exact .inr rfl

/-- Whatever is asked of a scanner, and however much of it fails, it stands in its text, and what is
asked next moves neither of its places back. Passing over a character fails at the end of the text
and changes nothing; scanning a token fails there with nothing but a token begun, or at a character
that begins none, with that character passed over and no other. -/
theorem runAll_standsIn (tabSize : Int) (source : List Char) (operations : List Operation) :
    let s := (ofText tabSize source).runAll operations
    s.StandsIn tabSize source ∧
      (∀ operation : Operation, s.start.offset ≤ (operation.run s).start.offset ∧
        s.here.offset ≤ (operation.run s).here.offset) ∧
      ((s.ahead = [] ∧ s.advance = (.error (s.error .unexpectedEnd none).raised, s)) ∨
        ∃ c rest, s.ahead = c :: rest ∧ s.advance = (.ok c, s.pass [c] rest)) ∧
      ((s.ahead = [] ∧
          s.scanToken = (.error (s.begin.error .unexpectedEnd none).raised, s.begin)) ∨
        ∃ c rest, s.ahead = c :: rest ∧ ((∃ t s', s.scanToken = (.ok t, s')) ∨
          s.scanToken =
            (.error (s.begin.error .unexpectedCharacter (String.singleton c)).raised,
              s.begin.pass [c] rest))) := by
  intro s
  have hs : s.StandsIn tabSize source := (Moves.runAll _ operations).standsIn (.ofText _ _)
  exact ⟨hs, fun operation => (Moves.run s operation).offset_le hs.start_le, advance_eq s,
    scanToken_eq s⟩

/-- Asked for a number within a name, a scanner fails behind the digits. -/
example :
    let s := (ofText 4 ['x', '1', ';']).runAll [.advance]
    s.readNumber.1 = .error (.unreadable (.number "x1")) ∧ s.readNumber.2.here.offset = 2 := by
  decide +kernel

end ExprFront.Scanner
