import ExprFront.Proofs.Scan.Joining

/-!
# Cutting a text

A scanner carries nothing from one item to the next but its place, and an item that ends before a
cut has seen all that it needs before it. So a text may be cut anywhere but within a token: the parts
are scanned apart to the same items, those of the second part moved on to where it stands.
-/

namespace ExprFront

/-! ## The items of a text -/

section

variable {tabSize : Int} {p : Place} {blank text rest ahead front : List Char} {c : Char}
  {item : ScanItem} {items items' : List ScanItem}

theorem ItemsAt.of_blank (hblank : ∀ c ∈ blank, isBlank c = true) : ItemsAt tabSize p blank [] :=
  ⟨[], blank, rfl, .remainder hblank⟩

theorem ItemsAt.cons (hblank : ∀ c ∈ blank, isBlank c = true) (hfirst : text.head? = some c)
    (hc : isBlank c = false) (hitem : ItemAt (p.after tabSize blank) (text ++ rest) text item)
    (hrest : ItemsAt tabSize (p.after tabSize (blank ++ text)) rest items) :
    ItemsAt tabSize p (blank ++ (text ++ rest)) (item :: items) := by
  obtain ⟨segments, remainder, rfl, hdivides⟩ := hrest
  exact ⟨(blank, text) :: segments, remainder, rfl, .item hblank hfirst hc hitem hdivides⟩

theorem ItemsAt.movedTo (h : ItemsAt tabSize p text items) (hline : 1 ≤ p.position.line)
    (origin : Place) :
    ItemsAt tabSize (origin.movedTo p) text (items.map (·.movedTo origin)) := by
  obtain ⟨segments, remainder, htext, hdivides⟩ := h
  exact ⟨segments, remainder, htext, hdivides.movedTo hline origin⟩

/-! ## Cuts -/

/-- An item is the same with less ahead, as long as its text is there. -/
theorem ItemAt.of_prefix (h : ItemAt p ahead text item) (hfront : front <+: ahead)
    (htext : text <+: front) : ItemAt p front text item := by
  cases h with
  | token hlongest hpayload =>
    exact .token ⟨hlongest.lexeme, htext, fun kind' text' hlexeme hbegins =>
      hlongest.longest kind' text' hlexeme (hbegins.trans hfront)⟩ hpayload
  | error hc hnone =>
    obtain ⟨more, rfl⟩ := htext
    exact .error rfl fun kind text hlexeme hbegins => hnone kind text hlexeme (hbegins.trans hfront)

/-- Only a token has a text of more than one character. -/
theorem ItemAt.exists_token {before behind : List Char}
    (h : ItemAt p ahead (before ++ behind) item) (hbefore : before ≠ []) (hbehind : behind ≠ []) :
    ∃ t, item = .token t ∧ t.start = p.offset ∧
      t.stop = p.offset + (before.length + behind.length : Nat) := by
  generalize htext : before ++ behind = text at h
  cases h with
  | token hlongest hpayload =>
    refine ⟨_, rfl, rfl, ?_⟩
    rw [← List.length_append, htext]
    rfl
  | error hc hnone =>
    have hlength := congrArg List.length htext
    have hpos := List.length_pos_iff.2 hbefore
    have hpos' := List.length_pos_iff.2 hbehind
    rw [List.length_append, List.length_singleton] at hlength
    omega

/-- A cut falls among the blanks before an item, behind its text, or within it. -/
theorem exists_of_append_eq {before behind : List Char}
    (h : blank ++ (text ++ rest) = before ++ behind) :
    (∃ more, blank = before ++ more ∧ behind = more ++ (text ++ rest)) ∨
      (∃ more, before = blank ++ (text ++ more) ∧ rest = more ++ behind) ∨
      ∃ front back, front ≠ [] ∧ back ≠ [] ∧ text = front ++ back ∧ before = blank ++ front := by
  rcases List.append_eq_append_iff.1 h with ⟨front, rfl, hbehind⟩ | ⟨more, hblank, hbehind⟩
  · rcases List.append_eq_append_iff.1 hbehind with ⟨more, rfl, hrest⟩ | ⟨back, rfl, rfl⟩
    · exact .inr (.inl ⟨more, rfl, hrest⟩)
    by_cases hfront : front = []
    · subst hfront
      exact .inl ⟨[], by simp, by simp⟩
    by_cases hback : back = []
    · subst hback
      exact .inr (.inl ⟨[], by simp, by simp⟩)
    exact .inr (.inr ⟨front, back, hfront, hback, rfl, rfl⟩)
  · exact .inl ⟨more, hblank, hbehind⟩

/-- The items of a text that is cut outside its tokens are those of its two parts. -/
theorem Divides.exists_cut {segments : List (List Char × List Char)}
    {remainder before behind : List Char} (h : Divides tabSize p segments remainder items)
    (htext : joined segments remainder = before ++ behind)
    (hcut : ∀ t : Token, .token t ∈ items →
      ¬ (t.start < p.offset + before.length ∧ p.offset + before.length < t.stop)) :
    ∃ items₁ items₂, ItemsAt tabSize p before items₁ ∧
      ItemsAt tabSize (p.after tabSize before) behind items₂ ∧ items = items₁ ++ items₂ := by
  induction h generalizing before with
  | remainder hblank =>
    rw [joined] at htext
    subst htext
    exact ⟨[], [], .of_blank fun c hc => hblank c (List.mem_append_left _ hc),
      .of_blank fun c hc => hblank c (List.mem_append_right _ hc), rfl⟩
  | @item p blank text remainder c segments item items hblank hfirst hc hitem hrest ih =>
    have hitems : ItemsAt tabSize (p.after tabSize (blank ++ text)) (joined segments remainder)
        items := ⟨segments, remainder, rfl, hrest⟩
    rcases exists_of_append_eq htext with ⟨more, rfl, rfl⟩ | ⟨more, rfl, hmore⟩ |
      ⟨front, back, hfront, hback, rfl, rfl⟩
    · refine ⟨[], item :: items, .of_blank fun c hc => hblank c (List.mem_append_left _ hc), ?_, rfl⟩
      rw [Place.after_append] at hitem
      rw [List.append_assoc, Place.after_append] at hitems
      exact .cons (fun c hc => hblank c (List.mem_append_right _ hc)) hfirst hc hitem hitems
    · have hcut' : ∀ t : Token, .token t ∈ items →
          ¬ (t.start < (p.after tabSize (blank ++ text)).offset + more.length ∧
            (p.after tabSize (blank ++ text)).offset + more.length < t.stop) := by
        intro t ht
        have hoffset := hcut t (List.mem_cons_of_mem _ ht)
        simpa [Place.after, Int.add_assoc] using hoffset
      obtain ⟨items₁, items₂, hbefore, hbehind, rfl⟩ := ih hmore hcut'
      rw [hmore] at hitem
      have hitem' : ItemAt (p.after tabSize blank) (text ++ more) text item :=
        hitem.of_prefix ⟨behind, List.append_assoc _ _ _⟩ (List.prefix_append _ _)
      rw [← Place.after_append, List.append_assoc] at hbehind
      exact ⟨item :: items₁, items₂, .cons hblank hfirst hc hitem' hbefore, hbehind, rfl⟩
    -- within a text of more than one character there is no cut
    · obtain ⟨t, rfl, hstart, hstop⟩ := hitem.exists_token hfront hback
      have hpos := List.length_pos_iff.2 hfront
      have hpos' := List.length_pos_iff.2 hback
      refine absurd ?_ (hcut t (List.mem_cons_self ..))
      rw [hstart, hstop]
      simp only [Place.after, List.length_append]
      omega

end

/-- A text may be cut wherever no token stands across the cut. Its items are those of the first part,
and behind them those of the second part: with the offset of the cut added to their offsets, the line
feeds of the first part to their lines, and, on the first line only, the columns of its last line to
their columns. The items of each text are what its scan finds, unless there is an error among them
whose position in that text cannot be written. -/
theorem scan_cut (tabSize : Int) (text : List Char) :
    ∃ items, scan tabSize text = ScanItem.raisedAll items ∧ ItemsAt tabSize .first text items ∧
      ∀ offset ≤ text.length,
      (∀ t : Token, .token t ∈ items → ¬ (t.start < offset ∧ offset < t.stop)) →
      ∃ before behind, scan tabSize (text.take offset) = ScanItem.raisedAll before ∧
        ItemsAt tabSize .first (text.take offset) before ∧
        scan tabSize (text.drop offset) = ScanItem.raisedAll behind ∧
        ItemsAt tabSize .first (text.drop offset) behind ∧
        items = before ++ behind.map (·.movedTo ⟨offset, .counted tabSize (text.take offset)⟩) := by
  obtain ⟨segments, remainder, items, hrun, htext, hdivides⟩ := exists_divides tabSize text
  refine ⟨items, hrun, ⟨segments, remainder, htext, hdivides⟩, fun offset hoffset hcut => ?_⟩
  obtain ⟨behind, hbehind, hitems⟩ := exists_itemsAt tabSize (text.drop offset)
  have hlength : (text.take offset).length = offset := List.length_take_of_le hoffset
  have hplace : Place.first.after tabSize (text.take offset) =
      ⟨offset, .counted tabSize (text.take offset)⟩ := by
    unfold Place.after
    rw [hlength, ← Position.afterAll_first]
    simp [Place.first]
  have hcut' : ∀ t : Token, .token t ∈ items →
      ¬ (t.start < Place.first.offset + (text.take offset).length ∧
        Place.first.offset + (text.take offset).length < t.stop) := by
    simpa [Place.first, hlength] using hcut
  obtain ⟨items₁, items₂, hfirst, hsecond, rfl⟩ :=
    hdivides.exists_cut (htext.symm.trans (List.take_append_drop offset text).symm) hcut'
  -- the items of the second part are found from the beginning of a text too
  have hmoved := hitems.movedTo (Int.le_refl 1) (Place.first.after tabSize (text.take offset))
  rw [Place.movedTo_first] at hmoved
  refine ⟨items₁, behind, hfirst.scan_eq, hfirst, hbehind, hitems, ?_⟩
  rw [hsecond.unique hmoved, hplace]

/-- Behind the tab that begins a line, the name next to it is moved on by the columns of the tab, and
the character on the next line by none. -/
theorem scan_cut_tab :
    let text := ['a', '\n', '\t', 'b', '\n', '?']
    ∃ items before behind, scan 4 text = .ok items ∧ 3 ≤ text.length ∧
      (∀ t : Token, .token t ∈ items → ¬ (t.start < (3 : Nat) ∧ (3 : Nat) < t.stop)) ∧
      scan 4 ['a', '\n', '\t'] = .ok before ∧ scan 4 ['b', '\n', '?'] = .ok behind ∧
      items = before ++ behind.map (·.movedTo ⟨3, ⟨2, 5⟩⟩) ∧
      behind.map ScanItem.position = [⟨1, 1⟩, ⟨2, 1⟩] ∧
      items.map ScanItem.position = [⟨1, 1⟩, ⟨2, 5⟩, ⟨3, 1⟩] := by
  intro text
  obtain ⟨items, hrun, -, hall⟩ := scan_cut 4 text
  have hitems : scan 4 text = .ok [
      .token ⟨.identifier, .text "a", ⟨1, 1⟩, 0, 1, "a"⟩,
      .token ⟨.identifier, .text "b", ⟨2, 5⟩, 3, 4, "b"⟩,
      .error ⟨.unexpectedCharacter, ⟨3, 1⟩, some "?"⟩] := by decide +kernel
  obtain rfl := ScanItem.eq_of_raisedAll (hrun.symm.trans hitems)
  have hbefore' : (scan 4 ['a', '\n', '\t']).map List.length = .ok 1 := by decide +kernel
  have hpositions : (scan 4 ['b', '\n', '?']).map (·.map ScanItem.position) =
      .ok [⟨1, 1⟩, ⟨2, 1⟩] := by decide +kernel
  have hlength : 3 ≤ text.length := by decide
  obtain ⟨before, behind, hbefore, -, hbehind, -, heq⟩ := hall 3 hlength (by simp)
  rw [show scan 4 ['a', '\n', '\t'] = _ from hbefore] at hbefore'
  rw [show scan 4 ['b', '\n', '?'] = _ from hbehind] at hpositions
  obtain ⟨hbefore', -⟩ := ScanItem.of_map_raisedAll hbefore'
  obtain ⟨hbehind', hpositions⟩ := ScanItem.of_map_raisedAll hpositions
  exact ⟨_, before, behind, hitems, hlength, by simp, hbefore.trans hbefore', hbehind.trans hbehind',
    heq, hpositions, rfl⟩

/-- Both parts of a text are scanned, but behind a wide tab the error of the second part cannot be
worded. -/
theorem scan_cut_far :
    let tabSize : Int := Position.farColumn - 1
    scan tabSize ['\t'] = .ok [] ∧
      scan tabSize ['?'] = .ok [.error ⟨.unexpectedCharacter, .first, some "?"⟩] ∧
      scan tabSize ['\t', '?'] = .error .position := by
  intro tabSize
  have hquestion (p : Place) : ItemAt p ['?'] ['?']
      (.error ⟨.unexpectedCharacter, p.position, some "?"⟩) :=
    Scanner.itemAt_of_none rfl rfl rfl (by decide +kernel)
  have htab : ∀ c ∈ ['\t'], isBlank c = true := by simp [isBlank, blanks]
  have hbefore : Divides tabSize .first [] ['\t'] [] := .remainder htab
  have hbehind : Divides tabSize .first [([], ['?'])] [] _ :=
    .item (by simp) rfl (by decide) (hquestion _) (.remainder (by simp))
  have hwhole : Divides tabSize .first [(['\t'], ['?'])] [] _ :=
    .item htab rfl (by decide) (hquestion _) (.remainder (by simp))
  have hcolumn : 1 + tabSize = Position.farColumn := by omega
  refine ⟨hbefore.scan_joined.trans rfl, hbehind.scan_joined.trans (if_pos ?_),
    hwhole.scan_joined.trans (ScanItem.raisedAll_cons_of_not ?_)⟩
  · decide +kernel
  · show Position.isWritable ⟨1, 1 + tabSize⟩ = false
    rw [hcolumn]
    exact Position.isWritable_farColumn 1

end ExprFront
