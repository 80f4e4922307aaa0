import ExprFront.Proofs.Scan.Positions

/-!
# Joining texts

A punctuation character is a token of its own wherever it stands, and nothing reaches across it. So
a text with such a character in the middle is scanned as the texts on both sides: the items behind
the character are those of the text there, moved on to where it stands.
-/

namespace ExprFront

/-! ## Moving -/

/-- A position in a text that comes to stand behind an origin. Only the first line has something in
front of it. -/
def Position.movedTo (origin p : Position) : Position where
  line := origin.line + (p.line - 1)
  column := if p.line = 1 then origin.column + (p.column - 1) else p.column

/-- A place in a text that comes to stand behind an origin. -/
def Place.movedTo (origin p : Place) : Place :=
  ⟨origin.offset + p.offset, origin.position.movedTo p.position⟩

/-- A token of a text that comes to stand behind an origin. -/
def Token.movedTo (origin : Place) (t : Token) : Token :=
  { t with
    position := origin.position.movedTo t.position
    start := origin.offset + t.start
    stop := origin.offset + t.stop }

/-- An item of a text that comes to stand behind an origin. -/
def ScanItem.movedTo (origin : Place) : ScanItem → ScanItem
  | .token t => .token (t.movedTo origin)
  | .error e => .error { e with position := origin.position.movedTo e.position }

section

variable {tabSize : Int} {origin p : Position}

@[simp] theorem Position.movedTo_first (origin : Position) : origin.movedTo .first = origin := by
  simp [movedTo, first]

@[simp] theorem Place.movedTo_first (origin : Place) : origin.movedTo .first = origin := by
  simp [movedTo, first]

/-- Moving on and being moved are independent. -/
theorem Position.movedTo_after (h : 1 ≤ p.line) (c : Char) :
    origin.movedTo (p.after tabSize c) = (origin.movedTo p).after tabSize c := by
  have hline : p.line + 1 ≠ 1 := by omega
  unfold after
  split_ifs
  · simp [movedTo, hline]
    omega
  · by_cases hfirst : p.line = 1 <;> simp [movedTo, hfirst]
    omega
  · rfl
  · by_cases hfirst : p.line = 1 <;> simp [movedTo, hfirst]
    omega

theorem Position.movedTo_afterAll (h : 1 ≤ p.line) (text : List Char) :
    origin.movedTo (p.afterAll tabSize text) = (origin.movedTo p).afterAll tabSize text := by
  induction text generalizing p with
  | nil => rfl
  | cons c text ih =>
    rw [afterAll_cons, afterAll_cons, ← movedTo_after h]
    exact ih (Int.le_trans h (p.line_after tabSize c).1)

theorem Place.movedTo_after {origin p : Place} (h : 1 ≤ p.position.line) (text : List Char) :
    origin.movedTo (p.after tabSize text) = (origin.movedTo p).after tabSize text := by
  unfold movedTo after
  rw [Position.movedTo_afterAll h, Nat.add_assoc]

end

section

variable {tabSize : Int} {p origin : Place} {kind : TokenKind} {c : Char}
  {text ahead remainder remainder' : List Char} {segments segments' : List (List Char × List Char)}
  {item : ScanItem} {items items' : List ScanItem}

theorem ItemAt.movedTo (h : ItemAt p ahead text item) (origin : Place) :
    ItemAt (origin.movedTo p) ahead text (item.movedTo origin) := by
  cases h with
  | error hc hnone => exact .error hc hnone
  | @token kind text payload hlongest hpayload =>
    have htoken : (p.token kind payload text).movedTo origin =
        (origin.movedTo p).token kind payload text := by
      simp [Place.token, Token.movedTo, Place.movedTo, Int.add_assoc]
    rw [faces_chars, ScanItem.movedTo, htoken]
    exact .token hlongest hpayload

/-- What a text is divided into does not depend on where the text stands. -/
theorem Divides.movedTo (h : Divides tabSize p segments remainder items)
    (hline : 1 ≤ p.position.line) (origin : Place) :
    Divides tabSize (origin.movedTo p) segments remainder (items.map (·.movedTo origin)) := by
  induction h with
  | remainder hblank => exact .remainder hblank
  | item hblank hfirst hc hitem hrest ih =>
    refine .item hblank hfirst hc ?_ ?_
    · rw [← Place.movedTo_after hline]
      exact hitem.movedTo origin
    · rw [← Place.movedTo_after hline]
      exact ih (Int.le_trans hline (Position.line_afterAll _ _ _).1)

/-! ## Punctuation -/

/-- A punctuation character is in no lexeme but its own. -/
theorem Lexeme.eq_of_punctuation {kind' : TokenKind} (h : Lexeme kind' text)
    (hc : TokenKind.ofPunctuation? c = some kind) (hmem : c ∈ text) : text = [c] := by
  obtain ⟨hsign, hdigit, hname⟩ := TokenKind.ofPunctuation?_spec hc
  -- it is of no class that the characters of other lexemes are of
  obtain ⟨-, htext⟩ | ⟨p, hp⟩ | rfl | hpart := h.mem_classes hmem
  · exact htext
  · rw [hsign] at hp
    cases hp
  · cases hc
  · simp [Scanner.isNamePart, hdigit, hname] at hpart

/-- A lexeme ahead of a punctuation character ends before it. -/
theorem Lexeme.isPrefix_of_punctuation {kind' : TokenKind} {rest : List Char}
    (h : Lexeme kind' text) (hc : TokenKind.ofPunctuation? c = some kind) (hahead : ahead ≠ [])
    (hfront : text <+: ahead ++ c :: rest) : text <+: ahead := by
  rcases List.prefix_or_prefix_of_prefix hfront (List.prefix_append ahead _) with hle | ⟨more, rfl⟩
  · exact hle
  · cases more with
    | nil => simp
    | cons d more =>
      obtain ⟨rfl, -⟩ := List.cons_prefix_cons.1 ((List.prefix_append_right_inj ahead).1 hfront)
      have hone := congrArg List.length (h.eq_of_punctuation hc (by simp))
      simp only [List.length_append, List.length_cons, List.length_nil] at hone
      exact absurd (List.length_eq_zero_iff.1 (by omega)) hahead

/-- An item is the same with a punctuation character and anything else behind what is ahead. -/
theorem ItemAt.append (h : ItemAt p ahead text item)
    (hc : TokenKind.ofPunctuation? c = some kind) (rest : List Char) :
    ItemAt p (ahead ++ c :: rest) text item := by
  cases h with
  | token hlongest hpayload =>
    obtain ⟨hlexeme, hbegins, hall⟩ := hlongest
    have hahead : ahead ≠ [] := by
      rintro rfl
      obtain ⟨d, more, rfl⟩ := hlexeme.exists_cons
      simp at hbegins
    refine .token ⟨hlexeme, hbegins.trans (List.prefix_append _ _), ?_⟩ hpayload
    intro kind' text' hlexeme' hfront
    exact hall kind' text' hlexeme' (hlexeme'.isPrefix_of_punctuation hc hahead hfront)
  | error hhead hnone =>
    obtain ⟨more, rfl⟩ := List.head?_eq_some_iff.1 hhead
    refine .error rfl fun kind' text' hlexeme' hfront => ?_
    exact hnone kind' text' hlexeme'
      (hlexeme'.isPrefix_of_punctuation hc (List.cons_ne_nil _ _) hfront)

theorem joined_append (segments segments' : List (List Char × List Char))
    (remainder text remainder' : List Char) :
    joined (segments ++ (remainder, text) :: segments') remainder' =
      joined segments remainder ++ (text ++ joined segments' remainder') := by
  induction segments with
  | nil => rfl
  | cons segment segments ih => simp [joined, ih]

/-- Divisions of the texts on both sides of a punctuation character make one of the whole text. -/
theorem Divides.append (h : Divides tabSize p segments remainder items)
    (hc : TokenKind.ofPunctuation? c = some kind)
    (h' : Divides tabSize (p.after tabSize (joined segments remainder ++ [c])) segments' remainder'
      items') :
    Divides tabSize p (segments ++ (remainder, [c]) :: segments') remainder'
      (items ++ .token ((p.after tabSize (joined segments remainder)).token kind .absent [c]) ::
        items') := by
  induction h with
  | remainder hblank =>
    have hnot : isBlank c = false := (Lexeme.punctuation hc).not_blank c (List.mem_singleton_self c)
    exact .item hblank rfl hnot
      (.token (IsLongest.of_punctuation hc) (Scanner.denotes_punctuation hc)) h'
  | @item p blank text remainder d segments item items hblank hfirst hnot hitem hrest ih =>
    simp only [joined, ← Place.after_append, List.append_assoc] at h' ih ⊢
    refine .item hblank hfirst hnot ?_ (ih h')
    have hjoined := joined_append segments segments' remainder [c] remainder'
    rw [List.singleton_append] at hjoined
    rw [List.append_eq, hjoined, ← List.append_assoc]
    exact hitem.append hc _

end

/-! ## Tokens -/

section

variable {tabSize : Int} {items : List ScanItem} {tokens tokens' : List Token}
  {text text' : List Char}

theorem tokensOf_eq_ok_iff : tokensOf items = .ok tokens ↔ items = tokens.map .token := by
  constructor
  · intro h
    unfold tokensOf at h
    split at h
    · rename_i herrors
      cases h
      -- an item without an error is a token
      induction items with
      | nil => rfl
      | cons item items ih =>
        cases item with
        | token t => exact congrArg (.token t :: ·) (ih herrors)
        | error e => cases herrors
    · cases h
  · rintro rfl
    have herrors : (tokens.map ScanItem.token).filterMap ScanItem.error? = [] := by
      simp [ScanItem.error?]
    have htokens : (tokens.map ScanItem.token).filterMap ScanItem.token? = tokens := by
      rw [List.filterMap_map]
      exact List.filterMap_some
    unfold tokensOf
    rw [herrors, htokens]

/-- A text has tokens exactly if its items are these tokens. -/
theorem tokenize_eq_ok_iff :
    tokenize tabSize text = .ok tokens ↔ ItemsAt tabSize .first text (tokens.map .token) := by
  rw [← scan_eq_tokens_iff]
  unfold tokenize
  cases scan tabSize text with
  | error u => simp
  | ok items => simp [tokensOf_eq_ok_iff]

/-- Two texts with a punctuation character between them have the tokens of the first, that of the
character, and those of the second, which are moved on. -/
theorem tokenize_append {c : Char} {kind : TokenKind} (hc : TokenKind.ofPunctuation? c = some kind)
    (h : tokenize tabSize text = .ok tokens) (h' : tokenize tabSize text' = .ok tokens') :
    tokenize tabSize (text ++ c :: text') =
      .ok (tokens ++ (Place.first.after tabSize text).token kind .absent [c] ::
        tokens'.map (·.movedTo (Place.first.after tabSize (text ++ [c])))) := by
  rw [tokenize_eq_ok_iff] at h h'
  obtain ⟨segments, remainder, rfl, hdivides⟩ := h
  obtain ⟨segments', remainder', rfl, hdivides'⟩ := h'
  have hmoved := hdivides'.movedTo (Int.le_refl 1)
    (Place.first.after tabSize (joined segments remainder ++ [c]))
  rw [Place.movedTo_first] at hmoved
  have hitems := hdivides.append hc hmoved
  have hmap : (tokens'.map ScanItem.token).map (·.movedTo
      (Place.first.after tabSize (joined segments remainder ++ [c]))) =
        (tokens'.map (·.movedTo (Place.first.after tabSize (joined segments remainder ++ [c])))).map
          ScanItem.token := by
    rw [List.map_map, List.map_map]
    rfl
  rw [hmap] at hitems
  rw [tokenize_eq_ok_iff, List.map_append, List.map_cons]
  refine ⟨_, _, ?_, hitems⟩
  rw [joined_append, List.singleton_append]

end

end ExprFront
