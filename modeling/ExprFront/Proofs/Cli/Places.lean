import ExprFront.Cli.Run
import ExprFront.Proofs.Grammar.Sequencing
import ExprFront.Proofs.Parse.Calls
import ExprFront.Proofs.Scan.Positions

/-!
# Positions that a run shows

A run shows the positions of tokens and errors. All of them are positions in the text: an item is
reported where it begins, and a parse that finds the tokens ended reports the place behind the last
of them. So a text whose places have decimal texts can be run with whatever is asked for.
-/

namespace ExprFront

open Parse

/-! ## Places of items -/

section

variable {tabSize : Int} {text ahead : List Char}

/-- Behind a text without blanks the line is the same, and the column further by its length. -/
theorem Position.afterAll_of_not_blank (p : Position) (h : ∀ c ∈ text, isBlank c = false) :
    p.afterAll tabSize text = ⟨p.line, p.column + text.length⟩ := by
  induction text generalizing p with
  | nil => simp
  | cons c text ih =>
    obtain ⟨hc, htext⟩ := List.forall_mem_cons.1 h
    rw [afterAll_cons, after_of_not_blank hc, ih _ htext]
    simp [Int.add_assoc, Int.add_comm 1]

theorem ItemAt.position {q : Place} {item : ScanItem} (h : ItemAt q ahead text item) :
    item.position = q.position := by
  cases h <;> rfl

/-- The position behind a token, reckoned from its offsets. -/
def Token.endPosition (t : Token) : Position :=
  ⟨t.position.line, t.position.column + (t.stop - t.start)⟩

theorem ItemAt.endPosition {q : Place} {t : Token} (h : ItemAt q ahead text (.token t)) :
    text <+: ahead ∧ t.endPosition = q.position.afterAll tabSize text := by
  cases h with
  | token hlongest hpayload =>
    have hblank : ∀ c ∈ text, isBlank c = false := hlongest.lexeme.not_blank
    refine ⟨hlongest.begins, ?_⟩
    rw [Position.afterAll_of_not_blank _ hblank]
    simp [Token.endPosition, Place.token]

/-- The items of a text stand at places of it, and so do the ends of its tokens. -/
theorem ItemsAt.exists_front {items : List ScanItem} (h : ItemsAt tabSize .first text items) :
    ∀ item ∈ items,
      (∃ front, front <+: text ∧ item.position = Position.first.afterAll tabSize front) ∧
      ∀ t, item = .token t →
        ∃ front, front <+: text ∧ t.endPosition = Position.first.afterAll tabSize front := by
  obtain ⟨segments, remainder, rfl, hdivides⟩ := h
  intro item hmem
  obtain ⟨front, ahead, lexeme, htext, -, hitem⟩ := hdivides.exists_front (Place.after_nil ..).symm item hmem
  rw [List.nil_append] at htext
  rw [htext]
  refine ⟨⟨front, List.prefix_append _ _, hitem.position⟩, ?_⟩
  rintro t rfl
  obtain ⟨hbegins, hend⟩ : lexeme <+: ahead ∧
      t.endPosition = (Place.first.after tabSize front).position.afterAll tabSize lexeme :=
    hitem.endPosition
  refine ⟨front ++ lexeme, (List.prefix_append_right_inj front).2 hbegins, ?_⟩
  rw [hend, Position.afterAll_append]
  rfl

end

/-! ## Places of errors -/

section

variable {maxDepth : Int} {tokens : List Token} {e : ParseError}

theorem Cursor.endPosition_ofTokens (tokens : List Token) :
    (Cursor.ofTokens tokens).endPosition = tokens.getLast?.elim .first Token.endPosition := by
  unfold endPosition last? ofTokens
  cases tokens.getLast? <;> rfl

/-- Where a parse finds the tokens ended, it reports the position behind the last of them. -/
theorem position_of_unexpectedEnd {p : Position} {expected : List TokenKind}
    (h : parse maxDepth tokens = .error (.unexpectedEnd p expected)) :
    p = tokens.getLast?.elim .first Token.endPosition := by
  have hlocal : Explains _ _ (statements (primary maxDepth.toNat) (.ofTokens tokens)) :=
    LocalAt.statements_primary _ _
  obtain ⟨c, hrun | ⟨_, t, _, _, _, he⟩⟩ := parse_eq_error_iff.1 h
  · rw [hrun] at hlocal
    rw [← Cursor.endPosition_ofTokens]
    exact hlocal.1
  · cases he

/-- An error of parsing is reported at one of the tokens or behind the last of them. -/
theorem position_of_parse_error (h : parse maxDepth tokens = .error e) :
    (∃ t ∈ tokens, e.position = t.position) ∨
      e.position = tokens.getLast?.elim .first Token.endPosition := by
  have hmem : ∀ t, e.token? = some t → t ∈ tokens := by
    intro t htoken
    obtain ⟨c, hrun⟩ := exists_within_of_error h
    exact mem_tokens_of_error hrun htoken
  cases e with
  | unexpectedEnd p expected => exact .inr (position_of_unexpectedEnd h)
  | unexpectedToken t expected => exact .inl ⟨t, hmem t rfl, rfl⟩
  | nestingTooDeep t => exact .inl ⟨t, hmem t rfl, rfl⟩

end

namespace Cli

/-- Every position that a run may have to show has a decimal text: that of each token and of each
error of the text, and that of the error of parsing it. -/
structure Writable (tabSize maxDepth : Int) (text : List Char) : Prop where
  item : ∀ items, ItemsAt tabSize .first text items →
    ∀ item ∈ items, item.position.isWritable = true
  fault : ∀ tokens e, tokenize tabSize text = .ok tokens →
    parse maxDepth tokens = .error e → e.position.isWritable = true

/-- If every place of a text has a decimal text, so have the positions that a run shows. -/
theorem Writable.of_places {tabSize maxDepth : Int} {text : List Char}
    (h : ∀ front, front <+: text → (Position.first.afterAll tabSize front).isWritable = true) :
    Writable tabSize maxDepth text where
  item items hitems item hmem := by
    obtain ⟨⟨front, hfront, hposition⟩, -⟩ := hitems.exists_front item hmem
    rw [hposition]
    exact h front hfront
  fault tokens e htokens hparse := by
    rw [tokenize_eq_ok_iff] at htokens
    have htoken := fun t (ht : t ∈ tokens) =>
      htokens.exists_front _ (List.mem_map_of_mem ht)
    obtain ⟨t, ht, hposition⟩ | hposition := position_of_parse_error hparse
    · obtain ⟨⟨front, hfront, hfrontPosition⟩, -⟩ := htoken t ht
      rw [hposition]
      exact (congrArg Position.isWritable hfrontPosition).trans (h front hfront)
    · rw [hposition]
      cases hlast : tokens.getLast? with
      | none => exact h [] List.nil_prefix
      | some t =>
        obtain ⟨-, hend⟩ := htoken t (List.mem_of_getLast? hlast)
        obtain ⟨front, hfront, hfrontEnd⟩ := hend t rfl
        exact (congrArg Position.isWritable hfrontEnd).trans (h front hfront)

end Cli

end ExprFront
