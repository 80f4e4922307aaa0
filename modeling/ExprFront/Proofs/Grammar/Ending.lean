import ExprFront.Proofs.Cli.Places
import ExprFront.Proofs.Scan.Cutting
import ExprFront.Proofs.Scan.Moves

/-!
# Where the tokens end

A parser that needs a token where there is none reports the position behind the last token, and
reckons it from the offsets of that token. There are no blanks in tokens, so this is where a scanner
stands once it has passed over the token. The blanks behind it make no difference.
-/

namespace ExprFront

/-! ## Blanks behind a text -/

section

variable {tabSize : Int} {p : Place} {kind : TokenKind} {text ahead blank remainder : List Char}
  {segments : List (List Char × List Char)} {item : ScanItem} {items : List ScanItem}

/-- No lexeme reaches into the blanks behind the characters ahead. -/
theorem Lexeme.isPrefix_of_blank (h : Lexeme kind text) (hblank : ∀ c ∈ blank, isBlank c = true)
    (hfront : text <+: ahead ++ blank) : text <+: ahead := by
  obtain hle | ⟨more, rfl⟩ :=
    List.prefix_or_prefix_of_prefix hfront (List.prefix_append ahead blank)
  · exact hle
  · cases more with
    | nil => simp
    | cons c more =>
      have hmore : c :: more <+: blank := (List.prefix_append_right_inj ahead).1 hfront
      have hc := hblank c (hmore.subset (List.mem_cons_self ..))
      have hnot := h.not_blank c (by simp)
      rw [hc] at hnot
      cases hnot

/-- An item is the same with blanks behind what is ahead. -/
theorem ItemAt.append_blank (h : ItemAt p ahead text item)
    (hblank : ∀ c ∈ blank, isBlank c = true) : ItemAt p (ahead ++ blank) text item := by
  cases h with
  | token hlongest hpayload =>
    refine .token ⟨hlongest.lexeme, hlongest.begins.trans (List.prefix_append _ _), ?_⟩ hpayload
    intro kind' text' hlexeme hbegins
    exact hlongest.longest kind' text' hlexeme (hlexeme.isPrefix_of_blank hblank hbegins)
  | error hc hnone =>
    obtain ⟨more, rfl⟩ := List.head?_eq_some_iff.1 hc
    refine .error rfl fun kind text hlexeme hbegins => ?_
    exact hnone kind text hlexeme (hlexeme.isPrefix_of_blank hblank hbegins)

/-- The items take up the text to its end: there the last token ends, and with blanks behind it the
items are the same. -/
structure Fills (tabSize : Int) (p : Place) (front : List Char) (items : List ScanItem) : Prop where
  nil : items = [] → front = []
  last : ∀ t, items.getLast? = some (.token t) →
    t.stop = p.offset + front.length ∧ t.endPosition = p.position.afterAll tabSize front
  again : ∀ blank, (∀ c ∈ blank, isBlank c = true) → ItemsAt tabSize p (front ++ blank) items

theorem Fills.none (tabSize : Int) (p : Place) : Fills tabSize p [] [] where
  nil _ := rfl
  last _ ht := by cases ht
  again _ hblank := .of_blank hblank

/-- What the last token says of its end is where it ends. -/
theorem ItemAt.last (h : ItemAt (p.after tabSize blank) ahead text item) {t : Token}
    (ht : item = .token t) :
    t.stop = p.offset + (blank ++ text).length ∧
      t.endPosition = p.position.afterAll tabSize (blank ++ text) := by
  subst ht
  have hend : t.endPosition = (p.after tabSize blank).position.afterAll tabSize text :=
    h.endPosition.2
  refine ⟨?_, ?_⟩
  · cases h
    simp [Place.token, Place.after, Int.add_assoc]
  · rw [hend, Position.afterAll_append]
    rfl

theorem Fills.cons {front : List Char} {c : Char} (hblank : ∀ c ∈ blank, isBlank c = true)
    (hfirst : text.head? = some c) (hc : isBlank c = false)
    (hitem : ItemAt (p.after tabSize blank) (text ++ front) text item)
    (h : Fills tabSize (p.after tabSize (blank ++ text)) front items) :
    Fills tabSize p (blank ++ text ++ front) (item :: items) where
  nil hitems := nomatch hitems
  last t ht := by
    cases items with
    | nil =>
      -- the last item is this one, and nothing is behind it
      rw [h.nil rfl, List.append_nil]
      exact hitem.last (by simpa using ht)
    | cons next items =>
      obtain ⟨hstop, hend⟩ := h.last t (by simpa using ht)
      refine ⟨?_, ?_⟩
      · rw [hstop, List.length_append, Int.natCast_add, ← Int.add_assoc]
        rfl
      · rw [hend, Position.afterAll_append]
        rfl
  again blank' hblank' := by
    have hbehind := hitem.append_blank hblank'
    rw [List.append_assoc] at hbehind
    have hitems := ItemsAt.cons hblank hfirst hc hbehind (h.again blank' hblank')
    rwa [List.append_assoc, List.append_assoc]

/-- A text is what its items take up, and blanks. -/
theorem Divides.exists_fills (h : Divides tabSize p segments remainder items) :
    ∃ front blank, joined segments remainder = front ++ blank ∧ (∀ c ∈ blank, isBlank c = true) ∧
      Fills tabSize p front items := by
  induction h with
  | @remainder p blank hblank => exact ⟨[], blank, rfl, hblank, .none tabSize p⟩
  | @item p blank text remainder c segments item items hblank hfirst hc hitem hrest ih =>
    obtain ⟨front, rest, htext, hrest, hfills⟩ := ih
    rw [htext] at hitem
    have hfront : ItemAt (p.after tabSize blank) (text ++ front) text item :=
      hitem.of_prefix ⟨rest, List.append_assoc _ _ _⟩ (List.prefix_append _ _)
    exact ⟨blank ++ text ++ front, rest, by simp [joined, htext], hrest,
      .cons hblank hfirst hc hfront hfills⟩

end

/-! ## Moving to the end of the tokens -/

namespace Scanner

/-- Passing over characters one by one leads behind them. -/
theorem here_runAll_advance {n : Nat} {s : Scanner} (h : n ≤ s.ahead.length) :
    (s.runAll (.replicate n .advance)).here = s.here.after s.tabSize (s.ahead.take n) := by
  induction n generalizing s with
  | zero => rw [List.take_zero, Place.after_nil]; rfl
  | succ n ih =>
    obtain ⟨c, rest, hahead⟩ := List.exists_cons_of_length_pos (Nat.zero_lt_of_lt h)
    have hadvance : Operation.advance.run s = s.pass [c] rest := by
      unfold Operation.run advance
      rw [hahead]
    have hrest : n ≤ (s.pass [c] rest).ahead.length := by
      rw [hahead] at h
      exact Nat.le_of_succ_le_succ h
    show ((Operation.advance.run s).runAll (.replicate n .advance)).here = _
    rw [hadvance, ih hrest, hahead, List.take_succ_cons]
    exact (Place.after_append s.tabSize s.here [c] (rest.take n)).symm

end Scanner

section

variable {tabSize maxDepth : Int} {text : List Char} {tokens : List Token} {p : Position}
  {expected : List TokenKind}

/-- The tokens of a text fill what it has in front of the blanks at its end. -/
theorem exists_fills_of_tokenize (h : tokenize tabSize text = .ok tokens) :
    ∃ front blank, text = front ++ blank ∧ (∀ c ∈ blank, isBlank c = true) ∧
      Fills tabSize .first front (tokens.map .token) := by
  obtain ⟨segments, remainder, rfl, hdivides⟩ := tokenize_eq_ok_iff.1 h
  exact hdivides.exists_fills

section

variable {front blank : List Char} (h : Fills tabSize .first front (tokens.map .token))

include h

theorem Fills.tokenize (hblank : ∀ c ∈ blank, isBlank c = true) :
    tokenize tabSize (front ++ blank) = .ok tokens :=
  tokenize_eq_ok_iff.2 (h.again blank hblank)

theorem Fills.eq_nil (hnone : tokens = []) : front = [] :=
  h.nil (congrArg (List.map _) hnone)

theorem Fills.last_token {t : Token} (ht : tokens.getLast? = some t) :
    t.stop = front.length ∧ t.endPosition = Position.first.afterAll tabSize front := by
  obtain ⟨hstop, hend⟩ := h.last t (by rw [List.getLast?_map, ht]; rfl)
  exact ⟨by simpa [Place.first] using hstop, hend⟩

/-- A parse that finds the tokens ended reports the end of what they fill. -/
theorem Fills.position_of_unexpectedEnd
    (hparse : parse maxDepth tokens = .error (.unexpectedEnd p expected)) :
    p = Position.first.afterAll tabSize front := by
  rw [ExprFront.position_of_unexpectedEnd hparse]
  cases hend : tokens.getLast? with
  | none =>
    rw [h.eq_nil (List.getLast?_eq_none_iff.1 hend)]
    rfl
  | some t => exact (h.last_token hend).2

end

/-- Where a parse finds the tokens of a text ended, it reports the first position if there is no
token, and otherwise the one at which a scanner stands that has passed over the characters up to the
end of the last token. Behind that there are blanks, and whatever blanks there were, the tokens would
be the same, and so the error. -/
theorem parse_unexpectedEnd (htokens : tokenize tabSize text = .ok tokens)
    (hparse : parse maxDepth tokens = .error (.unexpectedEnd p expected)) :
    ∃ n ≤ text.length, (tokens = [] → n = 0 ∧ p = ⟨1, 1⟩) ∧
      (∀ last, tokens.getLast? = some last → last.stop = n) ∧
      ((Scanner.ofText tabSize text).runAll (.replicate n .advance)).here = ⟨n, p⟩ ∧
      (∀ c ∈ text.drop n, isBlank c = true) ∧
      ∀ blank, (∀ c ∈ blank, isBlank c = true) →
        tokenize tabSize (text.take n ++ blank) = .ok tokens := by
  obtain ⟨front, blank, rfl, hblank, hfills⟩ := exists_fills_of_tokenize htokens
  have hlength : front.length ≤ (front ++ blank).length := by simp
  have hposition := hfills.position_of_unexpectedEnd hparse
  refine ⟨front.length, hlength, ?_, fun t ht => (hfills.last_token ht).1, ?_, ?_, ?_⟩
  · intro hnone
    obtain rfl := hfills.eq_nil hnone
    exact ⟨rfl, hposition⟩
  · rw [Scanner.here_runAll_advance hlength, hposition]
    show Place.first.after tabSize ((front ++ blank).take front.length) = _
    rw [List.take_left]
    simp [Place.after, Place.first]
  · rwa [List.drop_left]
  · intro blank' hblank'
    rw [List.take_left]
    exact hfills.tokenize hblank'

/-- Behind a tab and a sum that breaks off, the tab and the line feed at the end do not count. -/
theorem parse_unexpectedEnd_sum :
    let text := ['\t', 'x', ' ', '+', '\t', '\n']
    ∃ tokens, tokenize 4 text = .ok tokens ∧
      parse 100 tokens = .error (.unexpectedEnd ⟨1, 8⟩ TokenKind.primaryStart) ∧
      ((Scanner.ofText 4 text).runAll (.replicate 4 .advance)).here = ⟨4, ⟨1, 8⟩⟩ ∧
      tokenize 4 ['\t', 'x', ' ', '+'] = .ok tokens := by
  intro text
  let tokens : List Token := [⟨.identifier, .text "x", ⟨1, 5⟩, 1, 2, "x"⟩,
    ⟨.plus, .absent, ⟨1, 7⟩, 3, 4, "+"⟩]
  have htokens : tokenize 4 text = .ok tokens := by decide +kernel
  have hparse : parse 100 tokens = .error (.unexpectedEnd ⟨1, 8⟩ TokenKind.primaryStart) := rfl
  obtain ⟨n, -, -, hlast, hhere, -, hagain⟩ := parse_unexpectedEnd htokens hparse
  obtain rfl : 4 = n := Int.ofNat.inj (hlast _ rfl)
  exact ⟨tokens, htokens, hparse, hhere, hagain [] (by simp)⟩

end

end ExprFront
