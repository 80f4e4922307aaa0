import ExprFront.Proofs.Scan.Division

/-!
# Lookahead

An item is decided by its own text and the character behind it; only a number asks for one character
more, since a point belongs to it if a digit follows. So text that is put behind a scanned text
changes none of the items that are further than that from its end.
-/

namespace ExprFront

/-! ## Beginnings of lexemes -/

section

variable {kind kind' : TokenKind} {text front rest : List Char}

theorem Lexeme.ne_nil (h : Lexeme kind text) : text ≠ [] := by
  obtain ⟨c, rest, rfl⟩ := h.exists_cons
  exact List.cons_ne_nil c rest

/-- What a lexeme begins with is a lexeme too, unless it is a number up to its point. -/
theorem Lexeme.of_prefix (h : Lexeme kind text) (hfront : front <+: text) (hne : front ≠ []) :
    (∃ kind', Lexeme kind' front) ∨ ∃ whole, front = whole ++ ['.'] ∧ Lexeme .number whole := by
  obtain ⟨c, front, rfl⟩ := List.exists_cons_of_ne_nil hne
  cases h with
  | punctuation hc =>
    obtain ⟨rfl, hnil⟩ := List.cons_prefix_cons.1 hfront
    obtain rfl := List.prefix_nil.1 hnil
    exact .inl ⟨_, .punctuation hc⟩
  | sign hc =>
    obtain ⟨rfl, hnil⟩ := List.cons_prefix_cons.1 hfront
    obtain rfl := List.prefix_nil.1 hnil
    exact .inl ⟨_, .sign hc⟩
  | doubled hc =>
    obtain ⟨rfl, hequal⟩ := List.cons_prefix_cons.1 hfront
    obtain rfl | ⟨front, rfl, hnil⟩ := List.prefix_cons_iff.1 hequal
    · exact .inl ⟨_, .sign hc⟩
    · obtain rfl := List.prefix_nil.1 hnil
      exact .inl ⟨_, .doubled hc⟩
  | digits hc hwhole =>
    obtain ⟨rfl, hdigits⟩ := List.cons_prefix_cons.1 hfront
    exact .inl ⟨_, .digits hc fun d hd => hwhole d (hdigits.subset hd)⟩
  | @fraction _ d whole fraction hc hwhole hd hfraction =>
    obtain ⟨rfl, hbegin⟩ := List.cons_prefix_cons.1 hfront
    -- it ends among the digits before the point, with the point, or behind it
    rcases List.prefix_or_prefix_of_prefix hbegin (List.prefix_append whole _) with
      hle | ⟨more, rfl⟩
    · exact .inl ⟨_, .digits hc fun d hd => hwhole d (hle.subset hd)⟩
    · rw [List.prefix_append_right_inj] at hbegin
      obtain rfl | ⟨more, rfl, hbehind⟩ := List.prefix_cons_iff.1 hbegin
      · rw [List.append_nil]
        exact .inl ⟨_, .digits hc hwhole⟩
      obtain rfl | ⟨more, rfl, hdigits⟩ := List.prefix_cons_iff.1 hbehind
      · exact .inr ⟨c :: whole, rfl, .digits hc hwhole⟩
      · exact .inl ⟨_, .fraction hc hwhole hd fun d hd => hfraction d (hdigits.subset hd)⟩
  | word hc hrest =>
    obtain ⟨rfl, hparts⟩ := List.cons_prefix_cons.1 hfront
    exact .inl ⟨_, .word hc fun d hd => hrest d (hparts.subset hd)⟩

/-- The first character of a lexeme is a lexeme by itself. -/
theorem Lexeme.exists_first {c : Char} (h : Lexeme kind (c :: text)) :
    ∃ kind', Lexeme kind' [c] := by
  have hfront : [c] <+: c :: text := ⟨text, rfl⟩
  obtain hlexeme | ⟨whole, hwhole, hnumber⟩ := h.of_prefix hfront (List.cons_ne_nil c [])
  · exact hlexeme
  · obtain ⟨rfl, -⟩ := List.append_inj' (show [] ++ [c] = whole ++ ['.'] from hwhole) rfl
    exact absurd rfl hnumber.ne_nil

end

/-! ## Longest lexemes by the characters behind them -/

/-- How many characters behind a lexeme tell whether it goes on. -/
def TokenKind.lookahead (kind : TokenKind) : Nat :=
  if kind = .number then 2 else 1

section

variable {kind kind' : TokenKind} {text rest more : List Char}

theorem TokenKind.one_le_lookahead (kind : TokenKind) : 1 ≤ kind.lookahead := by
  unfold lookahead
  split_ifs <;> decide

theorem TokenKind.lookahead_le_two (kind : TokenKind) : kind.lookahead ≤ 2 := by
  unfold lookahead
  split_ifs <;> decide

/-- Where a lexeme goes on beyond another, the few characters behind that one make a lexeme with it
already. -/
theorem Lexeme.exists_next {c : Char} (h : Lexeme kind text)
    (h' : Lexeme kind' (text ++ c :: more)) :
    ∃ next, next ≠ [] ∧ next <+: c :: more ∧ next.length ≤ kind.lookahead ∧
      ∃ kind'', Lexeme kind'' (text ++ next) := by
  by_cases hone : ∃ kind'', Lexeme kind'' (text ++ [c])
  · exact ⟨[c], List.cons_ne_nil _ _, ⟨more, rfl⟩, kind.one_le_lookahead, hone⟩
  -- one character is not enough for a number with a point behind it
  · have hfront : text ++ [c] <+: text ++ c :: more := ⟨more, List.append_assoc _ _ _⟩
    obtain hlexeme | ⟨whole, hwhole, hnumber⟩ := h'.of_prefix hfront (by simp)
    · exact absurd hlexeme hone
    obtain ⟨rfl, hpoint⟩ := List.append_inj' hwhole rfl
    obtain rfl : kind = .number := h.kind_eq hnumber
    cases more with
    | nil => exact absurd ⟨_, h'⟩ hone
    | cons d more =>
      have hfront' : text ++ [c, d] <+: text ++ c :: d :: more := ⟨more, List.append_assoc _ _ _⟩
      obtain hlexeme | ⟨whole, hwhole', hnumber'⟩ := h'.of_prefix hfront' (by simp)
      · exact ⟨[c, d], List.cons_ne_nil _ _, ⟨more, rfl⟩, Nat.le_refl 2, hlexeme⟩
      · rw [List.append_cons] at hwhole'
        obtain ⟨rfl, -⟩ := List.append_inj' hwhole' rfl
        exact absurd ⟨_, hnumber'⟩ hone

/-- A lexeme is the longest ahead if the few characters behind it make no lexeme with it. -/
theorem isLongest_iff : IsLongest kind text (text ++ rest) ↔
    Lexeme kind text ∧ ∀ next, next ≠ [] → next <+: rest → next.length ≤ kind.lookahead →
      ∀ kind', ¬ Lexeme kind' (text ++ next) := by
  constructor
  · intro h
    refine ⟨h.lexeme, fun next hne hnext _ kind' hlexeme => ?_⟩
    have hle := h.longest kind' (text ++ next) hlexeme
      ((List.prefix_append_right_inj text).2 hnext)
    have hpos := List.length_pos_iff.2 hne
    rw [List.length_append] at hle
    omega
  · rintro ⟨hlexeme, hnone⟩
    refine ⟨hlexeme, List.prefix_append text rest, fun kind' text' hlexeme' hfront => ?_⟩
    rcases List.prefix_or_prefix_of_prefix hfront (List.prefix_append text rest) with
      hle | ⟨more, rfl⟩
    · exact hle.length_le
    cases more with
    | nil => simp
    | cons c more =>
      obtain ⟨next, hne, hnext, hlength, kind'', hnext'⟩ := hlexeme.exists_next hlexeme'
      rw [List.prefix_append_right_inj] at hfront
      exact absurd hnext' (hnone next hne (hnext.trans hfront) hlength kind'')

end

/-! ## Items by the characters behind them -/

/-- How many characters behind the text of an item decide about it. -/
def ScanItem.lookahead : ScanItem → Nat
  | .token t => t.kind.lookahead
  | .error _ => 1

section

variable {tabSize : Int} {p : Place} {text rest remainder : List Char} {item : ScanItem}
  {items : List ScanItem} {segments : List (List Char × List Char)}

theorem ScanItem.one_le_lookahead (item : ScanItem) : 1 ≤ item.lookahead := by
  cases item with
  | token t => exact t.kind.one_le_lookahead
  | error e => exact Nat.le_refl 1

theorem ScanItem.lookahead_le_two (item : ScanItem) : item.lookahead ≤ 2 := by
  cases item with
  | token t => exact t.kind.lookahead_le_two
  | error e => exact Nat.le_succ 1

/-- An item is the same with anything else behind the characters that it looks ahead at. -/
theorem ItemAt.continued (h : ItemAt p (text ++ rest) text item)
    (hrest : item.lookahead ≤ rest.length) (more : List Char) :
    ItemAt p (text ++ (rest ++ more)) text item := by
  cases h with
  | @token kind _ payload hlongest hpayload =>
    rw [isLongest_iff] at hlongest
    obtain ⟨hlexeme, hnone⟩ := hlongest
    refine .token (isLongest_iff.2 ⟨hlexeme, fun next hne hnext hlength => ?_⟩) hpayload
    have hnext' : next <+: rest := List.prefix_of_prefix_length_le hnext
      (List.prefix_append rest more) (Nat.le_trans hlength hrest)
    exact hnone next hne hnext' hlength
  | @error c hc hnone =>
    refine .error rfl fun kind text' hlexeme hfront => ?_
    obtain ⟨d, text', rfl⟩ := hlexeme.exists_cons
    obtain ⟨rfl, -⟩ := List.cons_prefix_cons.1 hfront
    obtain ⟨kind', hone⟩ := hlexeme.exists_first
    exact hnone kind' [d] hone (List.prefix_append _ _)

/-- Any text has a division from any place on. -/
theorem exists_divides_at (tabSize : Int) (p : Place) (text : List Char) :
    ∃ segments remainder items, text = joined segments remainder ∧
      Divides tabSize p segments remainder items := by
  obtain ⟨segments, remainder, items, -, htext, hdivides⟩ :=
    Scanner.scanRounds_spec text.length
      { tabSize, start := p, here := p, passed := [], ahead := text } (Nat.le_refl _)
  exact ⟨segments, remainder, items, htext, hdivides⟩

/-- The offset behind the text of an item, counted from where the division begins. -/
def endOffset (segments : List (List Char × List Char)) (k : Nat) : Nat :=
  (joined (segments.take (k + 1)) []).length

theorem endOffset_zero (blank text : List Char) (segments : List (List Char × List Char)) :
    endOffset ((blank, text) :: segments) 0 = blank.length + text.length := by
  simp [endOffset, joined]

theorem endOffset_succ (blank text : List Char) (segments : List (List Char × List Char)) (k : Nat) :
    endOffset ((blank, text) :: segments) (k + 1) =
      blank.length + text.length + endOffset segments k := by
  simp [endOffset, joined, Nat.add_assoc]

/-- Tokens end there by their own account. -/
theorem Divides.stop_eq {k : Nat} {t : Token} (h : Divides tabSize p segments remainder items)
    (ht : items[k]? = some (.token t)) : t.stop = p.offset + endOffset segments k := by
  induction h generalizing k with
  | remainder hblank => simp at ht
  | @item p blank text remainder c segments head items hblank hfirst hc hhead hrest ih =>
    cases k with
    | zero =>
      obtain rfl : head = .token t := by simpa using ht
      rw [endOffset_zero]
      cases hhead
      simp [Place.token, Place.after, Int.add_assoc]
    | succ k =>
      rw [endOffset_succ, ih ht]
      simp [Place.after, Int.add_assoc]

/-- No item ends where the division begins. -/
theorem Divides.endOffset_pos {k : Nat} (h : Divides tabSize p segments remainder items)
    (hitem : items[k]? = some item) : 0 < endOffset segments k := by
  cases h with
  | remainder hblank => simp at hitem
  | item hblank hfirst hc hitem' hrest =>
    obtain ⟨text, rfl⟩ := List.head?_eq_some_iff.1 hfirst
    rw [endOffset, List.take_succ_cons, joined]
    simp only [List.length_append, List.length_cons]
    omega

/-- The items of a division up to one that looks ahead no further than the text reaches are the items
with more text behind as well. -/
theorem Divides.continued (h : Divides tabSize p segments remainder items) (more : List Char)
    {k : Nat} (hitem : items[k]? = some item)
    (hend : endOffset segments k + item.lookahead ≤ (joined segments remainder).length) :
    ∃ segments' remainder' items', joined segments remainder ++ more = joined segments' remainder' ∧
      Divides tabSize p segments' remainder' items' ∧
      items'.take (k + 1) = items.take (k + 1) := by
  induction h generalizing k with
  | remainder hblank => simp at hitem
  | @item p blank text remainder c segments head items hblank hfirst hc hhead hrest ih =>
    simp only [joined, List.length_append] at hend
    cases k with
    | zero =>
      obtain rfl : head = item := by simpa using hitem
      rw [endOffset_zero] at hend
      obtain ⟨segments', remainder', items', hjoined, hdivides⟩ := exists_divides_at tabSize
        (p.after tabSize (blank ++ text)) (joined segments remainder ++ more)
      have hhead' := hhead.continued (by omega) more
      rw [hjoined] at hhead'
      refine ⟨(blank, text) :: segments', remainder', head :: items', ?_,
        .item hblank hfirst hc hhead' hdivides, rfl⟩
      simp [joined, ← hjoined]
    | succ k =>
      -- the first item ends before the later one, so it looks no further ahead than that
      rw [endOffset_succ] at hend
      have hpos := hrest.endOffset_pos hitem
      have hone := item.one_le_lookahead
      have htwo := head.lookahead_le_two
      obtain ⟨segments', remainder', items', hjoined, hdivides, htake⟩ := ih hitem (by omega)
      have hhead' := hhead.continued (by omega) more
      rw [hjoined] at hhead'
      refine ⟨(blank, text) :: segments', remainder', head :: items', ?_,
        .item hblank hfirst hc hhead' hdivides, ?_⟩
      · simp [joined, ← hjoined]
      · rw [List.take_succ_cons, List.take_succ_cons, htake]

end

/-- Text put behind a text changes only the items near its end. An item of the text that ends two
characters before the end, or one character before it if it is no number, is in the same place among
the items of the longer text, and so are all the items before it. The items of either text are what
its scan finds, unless it ends at an error that cannot be worded. -/
theorem scan_lookahead (tabSize : Int) (text more : List Char) :
    ∃ segments remainder items items', scan tabSize text = ScanItem.raisedAll items ∧
      text = joined segments remainder ∧ Divides tabSize .first segments remainder items ∧
      scan tabSize (text ++ more) = ScanItem.raisedAll items' ∧
      ItemsAt tabSize .first (text ++ more) items' ∧
      ∀ k item, items[k]? = some item →
        (∀ t : Token, item = .token t → t.stop = endOffset segments k) ∧
        (endOffset segments k + item.lookahead ≤ text.length →
          items'[k]? = some item ∧ items'.take k = items.take k) := by
  obtain ⟨segments, remainder, items, hrun, rfl, hdivides⟩ := exists_divides tabSize text
  obtain ⟨items', hrun', hitems'⟩ := exists_itemsAt tabSize (joined segments remainder ++ more)
  refine ⟨segments, remainder, items, items', hrun, rfl, hdivides, hrun', hitems', ?_⟩
  intro k item hitem
  constructor
  · rintro t rfl
    simpa [Place.first] using hdivides.stop_eq hitem
  · intro hend
    obtain ⟨segments'', remainder'', items'', htext'', hdivides'', htake⟩ :=
      hdivides.continued more hitem hend
    obtain rfl := ItemsAt.unique ⟨segments'', remainder'', htext'', hdivides''⟩ hitems'
    constructor
    · rw [← List.getElem?_take_of_lt (Nat.lt_succ_self k), htake,
        List.getElem?_take_of_lt (Nat.lt_succ_self k), hitem]
    · simpa [List.take_take] using congrArg (List.take k) htake

/-- A digit behind a point makes another number of the digits before it, but a sign before the number
and what is before the sign stay. -/
theorem scan_lookahead_point :
    let text := ['x', '=', '1', '.']
    ∃ items items', scan 4 text = .ok items ∧ scan 4 (text ++ ['5']) = .ok items' ∧
      items'[1]? = items[1]? ∧ items'.take 1 = items.take 1 ∧ items'[2]? ≠ items[2]? := by
  intro text
  obtain ⟨segments, remainder, items, items', hrun, -, -, hrun', -, hall⟩ :=
    scan_lookahead 4 text ['5']
  have hsign : (scan 4 text).map (·[1]?) =
      .ok (some (.token ⟨.equal, .absent, ⟨1, 2⟩, 1, 2, "="⟩)) := by decide +kernel
  have hsign' : (scan 4 (text ++ ['5'])).map (·[1]?) = (scan 4 text).map (·[1]?) := by
    decide +kernel
  have hchanged : (scan 4 (text ++ ['5'])).map (·[2]?) ≠ (scan 4 text).map (·[2]?) := by
    decide +kernel
  rw [hsign, hrun'] at hsign'
  rw [hrun] at hsign
  obtain ⟨hitems, hsign⟩ := ScanItem.of_map_raisedAll hsign
  obtain ⟨hitems', -⟩ := ScanItem.of_map_raisedAll hsign'
  rw [hrun, hrun', hitems, hitems'] at hchanged
  obtain ⟨hstop, hkept⟩ := hall 1 _ hsign
  -- the sign ends two characters before the end, and one would do
  have hend : (2 : Int) = endOffset segments 1 := hstop _ rfl
  have hbehind : endOffset segments 1 + 1 ≤ 4 := by omega
  obtain ⟨hsign', hbefore⟩ := hkept hbehind
  exact ⟨items, items', hrun.trans hitems, hrun'.trans hitems', hsign'.trans hsign.symm, hbefore,
    fun hsame => hchanged (congrArg Except.ok hsame)⟩

/-- A semicolon is scanned, but not with an error far to the right of it on the same line. -/
theorem scan_lookahead_far :
    let text := [';', '\t']
    let tabSize : Int := Position.farColumn - 2
    (∃ t : Token, scan tabSize text = .ok [.token t] ∧ t.kind ≠ .number ∧ t.stop + 1 ≤ text.length) ∧
      scan tabSize (text ++ ['?']) = .error .position := by
  intro text tabSize
  have hsemicolon (rest : List Char) : ItemAt .first (';' :: rest) [';']
      (.token (Place.first.token .semicolon .absent [';'])) :=
    .token (IsLongest.of_punctuation rfl) (.fixed (by decide) (by decide))
  have htab : ∀ c ∈ ['\t'], isBlank c = true := by simp [isBlank, blanks]
  constructor
  · have hdivides : Divides tabSize .first [([], [';'])] ['\t'] _ :=
      .item (by simp) rfl (by decide) (hsemicolon _) (.remainder htab)
    exact ⟨_, hdivides.scan_joined.trans (ScanItem.raisedAll_tokens [_]), by decide, by decide⟩
  · have hdivides : Divides tabSize .first [([], [';']), (['\t'], ['?'])] [] _ :=
      .item (by simp) rfl (by decide) (hsemicolon _)
        (.item htab rfl (by decide) (Scanner.itemAt_of_none rfl rfl rfl (by decide +kernel))
          (.remainder (by simp)))
    have hcolumn : (1 : Int) + 1 + tabSize = Position.farColumn := by omega
    rw [show text ++ ['?'] = joined [([], [';']), (['\t'], ['?'])] [] from rfl, hdivides.scan_joined,
      ScanItem.raisedAll_cons rfl, ScanItem.raisedAll_cons_of_not]
    · rfl
    · show Position.isWritable ⟨1, 1 + 1 + tabSize⟩ = false
      rw [hcolumn]
      exact Position.isWritable_farColumn 1

end ExprFront
