import ExprFront.Proofs.Scan.Division
import Mathlib.Algebra.Ring.Int.Defs
import Mathlib.Data.List.DropRight

/-!
# Positions of scanned items

A scanner moves its position on character by character. What comes out is what counting gives: the
line is the number of line feeds before, and the column the width of the characters behind the last
of them. Items begin with characters that are no blanks, so their positions follow one another in
the order of the text.
-/

namespace ExprFront

namespace Position

/-! ## Counting -/

/-- The number of columns that a character takes up on its line. -/
def width (tabSize : Int) (c : Char) : Int :=
  if c = '\t' then tabSize else if c = '\r' then 0 else 1

/-- The position behind a text: its line feeds and the width of what follows the last of them, both
counted from one. -/
def counted (tabSize : Int) (text : List Char) : Position where
  line := 1 + text.count '\n'
  column := 1 + ((text.rtakeWhile (· ≠ '\n')).map (width tabSize)).sum

theorem counted_concat (tabSize : Int) (text : List Char) (c : Char) :
    counted tabSize (text ++ [c]) = (counted tabSize text).after tabSize c := by
  by_cases hfeed : c = '\n'
  · subst hfeed
    simp [counted, after, Int.add_assoc]
  · have hline : (text ++ [c]).rtakeWhile (· ≠ '\n') = text.rtakeWhile (· ≠ '\n') ++ [c] :=
      List.rtakeWhile_concat_pos _ _ _ (by simpa using hfeed)
    have hcount : (text ++ [c]).count '\n' = text.count '\n' := by
      simp [List.count_append, hfeed]
    unfold after counted
    rw [hline, hcount]
    split_ifs <;> simp [width, Int.add_assoc, *]

/-- Moving on character by character counts. -/
theorem afterAll_first (tabSize : Int) (text : List Char) :
    first.afterAll tabSize text = counted tabSize text := by
  induction text using List.reverseRecOn with
  | nil => rfl
  | append_singleton text c ih => rw [afterAll_append, ih, counted_concat]; rfl

/-! ## The order of positions -/

/-- On an earlier line, or on the same line in an earlier column. -/
def Before (p q : Position) : Prop :=
  p.line < q.line ∨ p.line = q.line ∧ p.column < q.column

theorem Before.trans {p q r : Position} (h : p.Before q) (h' : q.Before r) : p.Before r := by
  unfold Before at *
  omega

theorem Before.ne {p q : Position} (h : p.Before q) : p ≠ q := by
  rintro rfl
  unfold Before at h
  omega

section

variable {tabSize : Int} {p q : Position} {c : Char} {text : List Char}

/-- A character that is no blank takes up one column. -/
theorem after_of_not_blank (hc : isBlank c = false) :
    p.after tabSize c = ⟨p.line, p.column + 1⟩ := by
  have hne : ¬ (c = ' ' ∨ c = '\t' ∨ c = '\r' ∨ c = '\n') := by
    rw [← isBlank_iff, hc]
    exact Bool.false_ne_true
  simp only [not_or] at hne
  simp [after, hne]

/-- A character that is no blank moves the position on, whatever the width of a tab. -/
theorem before_after (hc : isBlank c = false) : p.Before (p.after tabSize c) := by
  rw [after_of_not_blank hc]
  exact .inr ⟨rfl, Int.lt_add_one_iff.2 (Int.le_refl _)⟩

/-- With tabs of no negative width no character moves the position back. -/
theorem eq_or_before_after (htab : 0 ≤ tabSize) :
    p.after tabSize c = p ∨ p.Before (p.after tabSize c) := by
  unfold after
  split_ifs
  · exact .inr (.inl (Int.lt_add_one_iff.2 (Int.le_refl _)))
  · obtain hzero | hpos := Int.le_iff_eq_or_lt.1 htab
    · left
      rw [← hzero, Int.add_zero]
    · exact .inr (.inr ⟨rfl, Int.lt_add_of_pos_right _ hpos⟩)
  · exact .inl rfl
  · exact .inr (.inr ⟨rfl, Int.lt_add_one_iff.2 (Int.le_refl _)⟩)

theorem Before.afterAll (h : p.Before q) (htab : 0 ≤ tabSize) (text : List Char) :
    p.Before (q.afterAll tabSize text) := by
  induction text generalizing q with
  | nil => exact h
  | cons c text ih =>
    rw [afterAll_cons]
    obtain heq | hbefore := eq_or_before_after (p := q) (c := c) htab
    · exact ih (heq.symm ▸ h)
    · exact ih (h.trans hbefore)

end

end Position

/-! ## Items -/

/-- Where an item is reported. -/
def ScanItem.position : ScanItem → Position
  | .token t => t.position
  | .error e => e.position

theorem ScanItem.isWorded_of_position {item : ScanItem} (h : item.position.isWritable = true) :
    item.isWorded = true := by
  cases item with
  | token t => rfl
  | error e => exact h

/-- The offsets at which the texts of segments begin, the first segment beginning at an offset. -/
def startsFrom : Nat → List (List Char × List Char) → List Nat
  | _, [] => []
  | offset, (blank, text) :: rest =>
    (offset + blank.length) :: startsFrom (offset + blank.length + text.length) rest

/-- The item has its first character at an offset of the text: its position is the one counted up to
there, a token begins there, and an error shows the character. -/
structure ScanItem.BeginsAt (tabSize : Int) (text : List Char) (item : ScanItem) (offset : Nat) :
    Prop where
  position : item.position = .counted tabSize (text.take offset)
  token : ∀ t, item = .token t → t.start = offset
  error : ∀ e, item = .error e → e.shown = text[offset]?.map String.singleton

section

variable {tabSize : Int} {kind : TokenKind} {text ahead : List Char}

theorem isBlank_of_isNamePart {c : Char} (h : Scanner.isNamePart c = true) : isBlank c = false := by
  rw [← Bool.not_eq_true, isBlank_iff]
  simp only [Scanner.isNamePart, Bool.or_eq_true] at h
  obtain hname | hdigit := h
  · have hle := le_of_isNameStart hname
    rintro (rfl | rfl | rfl | rfl) <;> exact absurd hle (by decide)
  · have hrange := Numeral.isDigit_iff.1 hdigit
    rintro (rfl | rfl | rfl | rfl) <;> exact absurd hrange (by decide)

/-- There are no blanks in lexemes. -/
theorem Lexeme.not_blank (h : Lexeme kind text) : ∀ c ∈ text, isBlank c = false := by
  have hpunctuation : TokenKind.punctuation.all (fun (c, _) => !isBlank c) = true := by decide
  have hsigns : TokenKind.signs.all (fun (c, _) => !isBlank c) = true := by decide
  intro c hmem
  obtain ⟨hc, -⟩ | ⟨p, hc⟩ | rfl | hpart := h.mem_classes hmem
  · simpa using List.all_eq_true.1 hpunctuation _ (mem_of_lookup hc)
  · simpa using List.all_eq_true.1 hsigns _ (mem_of_lookup hc)
  · rfl
  · exact isBlank_of_isNamePart hpart

/-- The token of an item has no blanks in its text. -/
theorem ItemAt.not_blank {p : Place} {t : Token} (h : ItemAt p ahead text (.token t)) :
    ∀ c ∈ t.span.toList, isBlank c = false := by
  cases h with
  | token hlongest _ => simpa [Place.token] using hlongest.lexeme.not_blank

theorem Divides.not_blank {p : Place} {segments : List (List Char × List Char)}
    {remainder : List Char} {items : List ScanItem}
    (h : Divides tabSize p segments remainder items) :
    ∀ t, .token t ∈ items → ∀ c ∈ t.span.toList, isBlank c = false := by
  intro t ht
  obtain ⟨q, ahead, text, hitem⟩ := h.exists_itemAt _ ht
  exact hitem.not_blank

/-- The item at a place of a text begins there. -/
theorem ItemAt.beginsAt {item : ScanItem} (before : List Char)
    (h : ItemAt (Place.first.after tabSize before) ahead text item) :
    item.BeginsAt tabSize (before ++ ahead) before.length := by
  have hposition : (Place.first.after tabSize before).position = .counted tabSize before :=
    Position.afterAll_first tabSize before
  have hoffset : (Place.first.after tabSize before).offset = before.length := Nat.zero_add _
  cases h with
  | token hlongest hpayload =>
    refine ⟨?_, ?_, fun e he => by cases he⟩
    · rw [List.take_left]
      exact hposition
    · rintro t ⟨⟩
      exact congrArg Int.ofNat hoffset
  | error hc hnone =>
    refine ⟨?_, fun t ht => (by cases ht), ?_⟩
    · rw [List.take_left]
      exact hposition
    · rintro e ⟨⟩
      rw [List.getElem?_append_right (Nat.le_refl _), Nat.sub_self, ← List.head?_eq_getElem?, hc]
      rfl

/-- The items of a division begin where the texts of its segments do. -/
theorem Divides.beginsAt (before : List Char) {remainder : List Char}
    {segments : List (List Char × List Char)} {items : List ScanItem}
    (h : Divides tabSize (Place.first.after tabSize before) segments remainder items) :
    List.Forall₂ (ScanItem.BeginsAt tabSize (before ++ joined segments remainder)) items
      (startsFrom before.length segments) := by
  generalize hp : Place.first.after tabSize before = p at h
  induction h generalizing before with
  | remainder hblank => exact .nil
  | @item p blank text remainder c segments item items hblank hfirst hc hitem hrest ih =>
    subst hp
    rw [← Place.after_append] at hitem
    have hbegins := hitem.beginsAt
    -- what is behind the item comes behind all that is before it
    have hbehind := ih (before ++ (blank ++ text)) (Place.after_append _ _ _ _)
    simp only [List.append_assoc, List.length_append, ← Nat.add_assoc] at hbegins hbehind
    exact .cons hbegins hbehind

/-- A division has its items in the order of their positions, all of them at or behind the place
where it begins. -/
theorem Divides.before {p : Place} {segments : List (List Char × List Char)}
    {remainder : List Char} {items : List ScanItem} (htab : 0 ≤ tabSize)
    (h : Divides tabSize p segments remainder items) :
    (∀ q : Position, q.Before p.position → ∀ item ∈ items, q.Before item.position) ∧
      items.Pairwise fun item item' => item.position.Before item'.position := by
  induction h with
  | remainder hblank => simp
  | @item p blank text remainder c segments item items hblank hfirst hc hitem hrest ih =>
    obtain ⟨hbehind, hpairwise⟩ := ih
    have hposition : item.position = p.position.afterAll tabSize blank := by cases hitem <;> rfl
    obtain ⟨text, rfl⟩ := List.head?_eq_some_iff.1 hfirst
    -- the first character of the item parts it from the items behind it
    have hitem : item.position.Before (p.position.afterAll tabSize (blank ++ c :: text)) := by
      rw [hposition, Position.afterAll_append, Position.afterAll_cons]
      exact (Position.before_after hc).afterAll htab text
    refine ⟨fun q hq item' hmem => ?_, List.pairwise_cons.2 ⟨hbehind _ hitem, hpairwise⟩⟩
    have hq' : q.Before item.position := hposition ▸ hq.afterAll htab blank
    rcases List.mem_cons.1 hmem with rfl | hmem
    · exact hq'
    · exact hq'.trans (hbehind _ hitem item' hmem)

end

/-- The positions of a scan are counted. Whatever the width of a tab, each item is reported where
counting up to its first character leads, and no token has a blank in its text; and unless tabs go
back, the positions of the items follow one another, so that no two are the same. The scan finds all
items unless there is an error among them whose position cannot be written. -/
theorem scan_positions (tabSize : Int) (text : List Char) :
    ∃ segments remainder items, scan tabSize text = ScanItem.raisedAll items ∧
      text = joined segments remainder ∧ Divides tabSize .first segments remainder items ∧
      List.Forall₂ (ScanItem.BeginsAt tabSize text) items (startsFrom 0 segments) ∧
      (∀ t, .token t ∈ items → ∀ c ∈ t.span.toList, c ∉ blanks) ∧
      (0 ≤ tabSize → (items.map ScanItem.position).Pairwise Position.Before ∧
        (items.map ScanItem.position).Nodup) := by
  obtain ⟨segments, remainder, items, hrun, htext, hdivides⟩ := exists_divides tabSize text
  refine ⟨segments, remainder, items, hrun, htext, hdivides, ?_, ?_, ?_⟩
  · rw [htext]
    exact Divides.beginsAt [] hdivides
  · intro t ht c hc
    simpa [isBlank] using hdivides.not_blank t ht c hc
  · intro htab
    have hpairwise := List.pairwise_map.2 (hdivides.before htab).2
    exact ⟨hpairwise, hpairwise.imp Position.Before.ne⟩

/-- A name behind a tab, and on the next line behind another tab a character that begins nothing:
the first column of the line counts from the line feed alone. -/
theorem scan_positions_tabs :
    let text := ['\t', 'x', '\r', '\n', '\t', '?']
    (0 : Int) ≤ 4 ∧ ∃ items, scan 4 text = .ok items ∧
      items.map ScanItem.position = [⟨1, 5⟩, ⟨2, 5⟩] ∧
      (items.map ScanItem.position).Pairwise Position.Before := by
  intro text
  have hcounted : (scan 4 text).map (·.map ScanItem.position) = .ok [⟨1, 5⟩, ⟨2, 5⟩] := by
    decide +kernel
  obtain ⟨segments, remainder, items, hrun, -, -, -, -, horder⟩ := scan_positions 4 text
  rw [hrun] at hcounted
  obtain ⟨hitems, hcounted⟩ := ScanItem.of_map_raisedAll hcounted
  exact ⟨by decide, items, hrun.trans hitems, hcounted, (horder (by decide)).1⟩

/-- A tab that goes back puts two items in the same place. -/
example : (scan (-1) ['x', '\t', '?']).map (·.map ScanItem.position) = .ok [⟨1, 1⟩, ⟨1, 1⟩] := by
  decide +kernel

end ExprFront
