import ExprFront.Proofs.Scan.Lexeme
import ExprFront.Scan.Items
import Mathlib.Data.List.Infix

/-!
# Scanning divides a text

A text falls into blanks and the texts of its items in one way only: an item has the longest lexeme
ahead, or the one character ahead where there is none. The items of a scan are those of this
division, so a scan loses nothing of the text. What may end it early is an error that cannot be
worded, and there is none in a text whose columns can all be written. All this holds of code points as
it does of characters: a surrogate is read as a character that begins no lexeme and is in none.
-/

namespace ExprFront

section

variable {α : Type} [TextUnit α]

/-! ## Items by their texts -/

/-- The token of a text that begins at a place. -/
def Place.token (p : Place) (kind : TokenKind) (payload : Payload) (text : List Char) : Token :=
  { kind, payload, position := p.position, start := p.offset, stop := p.offset + text.length,
    span := String.ofList text }

/-- What the token of a lexeme carries: numbers their value, names their text, others nothing. -/
inductive Denotes : TokenKind → List Char → Payload → Prop where
  | number {text : List Char} {value : Binary64} (h : Numeral.number? text = some value) :
      Denotes .number text (.number value)
  | name {text : List Char} : Denotes .identifier text (.text (String.ofList text))
  | fixed {kind : TokenKind} {text : List Char} (hnumber : kind ≠ .number)
      (hname : kind ≠ .identifier) : Denotes kind text .absent

theorem Denotes.unique {kind : TokenKind} {text : List Char} {payload payload' : Payload}
    (h : Denotes kind text payload) (h' : Denotes kind text payload') : payload = payload' := by
  cases h with
  | number hvalue =>
    cases h' with
    | number hvalue' =>
      rw [hvalue, Option.some.injEq] at hvalue'
      rw [hvalue']
    | fixed hnumber _ => exact absurd rfl hnumber
  | name =>
    cases h' with
    | name => rfl
    | fixed _ hname => exact absurd rfl hname
  | fixed hnumber hname =>
    cases h' with
    | number _ => exact absurd rfl hnumber
    | name => exact absurd rfl hname
    | fixed _ _ => rfl

/-- The item at a place with the characters ahead, and its text: the longest lexeme makes a token,
and where no lexeme begins, one character makes an error. -/
inductive ItemAt (p : Place) (ahead : List α) : List α → ScanItem → Prop where
  | token {kind : TokenKind} {text : List α} {payload : Payload}
      (hlongest : IsLongest kind text ahead) (hpayload : Denotes kind (faces text) payload) :
      ItemAt p ahead text (.token (p.token kind payload (faces text)))
  | error {u : α} (hu : ahead.head? = some u)
      (hnone : ∀ kind (text : List α), Lexeme kind (faces text) → ¬ text <+: ahead) :
      ItemAt p ahead [u] (.error ⟨.unexpectedCharacter, p.position, TextUnit.shown u⟩)

theorem ItemAt.unique {p : Place} {ahead text text' : List α} {item item' : ScanItem}
    (h : ItemAt p ahead text item) (h' : ItemAt p ahead text' item') :
    text = text' ∧ item = item' := by
  cases h with
  | token hlongest hpayload =>
    cases h' with
    | token hlongest' hpayload' =>
      obtain ⟨rfl, rfl⟩ := hlongest.unique hlongest'
      rw [hpayload.unique hpayload']
      exact ⟨rfl, rfl⟩
    | error _ hnone => exact absurd hlongest.begins (hnone _ _ hlongest.lexeme)
  | error hu hnone =>
    cases h' with
    | token hlongest' _ => exact absurd hlongest'.begins (hnone _ _ hlongest'.lexeme)
    | error hu' _ =>
      rw [hu, Option.some.injEq] at hu'
      subst hu'
      exact ⟨rfl, rfl⟩

/-! ## Divisions -/

/-- A text made of segments, each of them blanks and the text of an item, and of what remains. -/
def joined : List (List α × List α) → List α → List α
  | [], remainder => remainder
  | (blank, text) :: rest, remainder => blank ++ (text ++ joined rest remainder)

/-- The segments and the remainder divide a text that begins at a place into these items. An item is
looked for at the first character that is not blank. -/
inductive Divides (tabSize : Int) :
    Place → List (List α × List α) → List α → List ScanItem → Prop where
  | remainder {p : Place} {blank : List α} (hblank : ∀ u ∈ blank, isBlank (face u) = true) :
      Divides tabSize p [] blank []
  | item {p : Place} {blank text remainder : List α} {u : α}
      {segments : List (List α × List α)} {item : ScanItem} {items : List ScanItem}
      (hblank : ∀ u ∈ blank, isBlank (face u) = true) (hfirst : text.head? = some u)
      (hu : isBlank (face u) = false)
      (hitem : ItemAt (p.after tabSize blank) (text ++ joined segments remainder) text item)
      (hrest : Divides tabSize (p.after tabSize (blank ++ text)) segments remainder items) :
      Divides tabSize p ((blank, text) :: segments) remainder (item :: items)

/-- The blanks before an item are those before the first character that is not blank. -/
theorem takeWhile_isBlank {blank text rest : List α} {u : α}
    (hblank : ∀ u ∈ blank, isBlank (face u) = true) (hfirst : text.head? = some u)
    (hu : isBlank (face u) = false) :
    (blank ++ (text ++ rest)).takeWhile (isBlank ∘ face) = blank := by
  obtain ⟨text', rfl⟩ := List.head?_eq_some_iff.1 hfirst
  have hwhole : ∀ u ∈ blank, (isBlank ∘ face) u = true := hblank
  rw [List.takeWhile_append_of_pos hwhole]
  simp [hu]

/-- There is no item in blanks. -/
theorem ne_append_of_blank {blank blank' text rest : List α} {u : α}
    (hblank : ∀ u ∈ blank, isBlank (face u) = true) (hfirst : text.head? = some u)
    (hu : isBlank (face u) = false) : blank ≠ blank' ++ (text ++ rest) := by
  rintro rfl
  have hmem : u ∈ text := List.mem_of_mem_head? hfirst
  rw [hblank u (by simp [hmem])] at hu
  cases hu

/-- A text is divided in one way. -/
theorem Divides.unique {tabSize : Int} {p : Place} {segments segments' : List (List α × List α)}
    {remainder remainder' : List α} {items items' : List ScanItem}
    (h : Divides tabSize p segments remainder items)
    (h' : Divides tabSize p segments' remainder' items')
    (htext : joined segments remainder = joined segments' remainder') :
    segments = segments' ∧ remainder = remainder' ∧ items = items' := by
  induction h generalizing segments' remainder' items' with
  | remainder hblank =>
    cases h' with
    | remainder hblank' => exact ⟨rfl, htext, rfl⟩
    | item _ hfirst' hu' _ _ => exact absurd htext (ne_append_of_blank hblank hfirst' hu')
  | @item p blank text remainder u segments item items hblank hfirst hu hitem hrest ih =>
    cases h' with
    | remainder hblank' => exact absurd htext.symm (ne_append_of_blank hblank' hfirst hu)
    | @item _ blank' text' _ u' segments' item' items' hblank' hfirst' hu' hitem' hrest' =>
      simp only [joined] at htext
      obtain rfl : blank = blank' := by
        rw [← takeWhile_isBlank hblank hfirst hu, htext, takeWhile_isBlank hblank' hfirst' hu']
      have hahead := List.append_cancel_left htext
      -- with the same characters ahead, the items are the same and so is what is behind them
      rw [← hahead] at hitem'
      obtain ⟨rfl, rfl⟩ := hitem.unique hitem'
      obtain ⟨rfl, rfl, rfl⟩ := ih hrest' (List.append_cancel_left hahead)
      exact ⟨rfl, rfl, rfl⟩

/-- The items of a text that begins at a place. -/
def ItemsAt (tabSize : Int) (p : Place) (text : List α) (items : List ScanItem) : Prop :=
  ∃ segments remainder, text = joined segments remainder ∧ Divides tabSize p segments remainder items

/-- A text has its items only. -/
theorem ItemsAt.unique {tabSize : Int} {p : Place} {text : List α} {items items' : List ScanItem}
    (h : ItemsAt tabSize p text items) (h' : ItemsAt tabSize p text items') : items = items' := by
  obtain ⟨segments, remainder, htext, hdivides⟩ := h
  obtain ⟨segments', remainder', htext', hdivides'⟩ := h'
  exact (hdivides.unique hdivides' (htext.symm.trans htext')).2.2

/-- Each item of a division is the item of a text ahead. -/
theorem Divides.exists_itemAt {tabSize : Int} {p : Place} {segments : List (List α × List α)}
    {remainder : List α} {items : List ScanItem}
    (h : Divides tabSize p segments remainder items) :
    ∀ item ∈ items, ∃ q, ∃ ahead text : List α, ItemAt q ahead text item := by
  induction h with
  | remainder hblank => simp
  | item hblank hfirst hu hitem hrest ih =>
    intro item hmem
    rcases List.mem_cons.1 hmem with rfl | hmem
    · exact ⟨_, _, _, hitem⟩
    · exact ih item hmem

/-- Each item of a division is the item at some place of the text, which does not end there. -/
theorem Divides.exists_front {tabSize : Int} {p : Place} {before remainder : List α}
    {segments : List (List α × List α)} {items : List ScanItem}
    (h : Divides tabSize p segments remainder items) (hp : p = Place.first.after tabSize before) :
    ∀ item ∈ items, ∃ front ahead text, before ++ joined segments remainder = front ++ ahead ∧
      ahead ≠ [] ∧ ItemAt (Place.first.after tabSize front) ahead text item := by
  induction h generalizing before with
  | remainder hblank => simp
  | @item p blank text remainder u segments item items hblank hfirst hu hitem hrest ih =>
    subst hp
    intro item' hmem
    rcases List.mem_cons.1 hmem with rfl | hmem
    · obtain ⟨text', rfl⟩ := List.head?_eq_some_iff.1 hfirst
      rw [← Place.after_append] at hitem
      exact ⟨before ++ blank, _, _, by simp [joined], List.cons_ne_nil _ _, hitem⟩
    · obtain ⟨front, ahead, text', htext, hahead, hitem'⟩ :=
        ih (Place.after_append _ _ _ _).symm item' hmem
      exact ⟨front, ahead, text', by simpa [joined] using htext, hahead, hitem'⟩

/-! ## Items that are met -/

namespace ScanItem

/-- Can the item be met? An error cannot where its position cannot be written. -/
def isWorded : ScanItem → Bool
  | .token _ => true
  | .error e => e.position.isWritable

/-- What a scan of these items comes to: it ends at the first error that cannot be worded. -/
def raisedAll (items : List ScanItem) : Except Unreadable (List ScanItem) :=
  if items.all isWorded then .ok items else .error .position

/-- What comes of scanning the token of an item. -/
def outcome : ScanItem → Except ScanFault Token
  | .token t => .ok t
  | .error e => .error e.raised

section

variable {item : ScanItem} {items items' : List ScanItem}

theorem raisedAll_of_worded (h : ∀ item ∈ items, item.isWorded = true) :
    raisedAll items = .ok items :=
  if_pos (List.all_eq_true.2 h)

theorem raisedAll_eq_ok_iff :
    raisedAll items = .ok items' ↔ items = items' ∧ ∀ item ∈ items, item.isWorded = true := by
  rw [← List.all_eq_true]
  unfold raisedAll
  split
  · rename_i hall
    exact ⟨fun h => ⟨Except.ok.inj h, hall⟩, fun h => congrArg _ h.1⟩
  · rename_i hall
    exact ⟨fun h => (by cases h), fun h => absurd h.2 hall⟩

theorem eq_of_raisedAll (h : raisedAll items = .ok items') : items = items' :=
  (raisedAll_eq_ok_iff.1 h).1

theorem eq_position_of_raisedAll {u : Unreadable} (h : raisedAll items = .error u) :
    u = .position := by
  unfold raisedAll at h
  split at h <;> cases h
  rfl

theorem of_map_raisedAll {α : Type} {f : List ScanItem → α} {a : α}
    (h : (raisedAll items).map f = .ok a) : raisedAll items = .ok items ∧ f items = a := by
  unfold raisedAll at h ⊢
  split at h
  · exact ⟨if_pos ‹_›, Except.ok.inj h⟩
  · cases h

theorem raisedAll_tokens (tokens : List Token) :
    raisedAll (tokens.map .token) = .ok (tokens.map .token) := by
  refine raisedAll_of_worded fun item hmem => ?_
  obtain ⟨t, -, rfl⟩ := List.mem_map.1 hmem
  rfl

theorem raisedAll_cons (h : item.isWorded = true) :
    raisedAll (item :: items) = (raisedAll items).map (item :: ·) := by
  unfold raisedAll
  rw [List.all_cons, h, Bool.true_and]
  split <;> rfl

theorem raisedAll_cons_of_not (h : item.isWorded = false) :
    raisedAll (item :: items) = .error .position := by
  unfold raisedAll
  rw [List.all_cons, h, Bool.false_and]
  rfl

theorem outcome_of_not (h : item.isWorded = false) :
    item.outcome = .error (.unreadable .position) := by
  cases item with
  | token t => cases h
  | error e => exact congrArg _ (if_neg (by simpa [isWorded] using h))

end

end ScanItem

/-! ## Scanning one item -/

namespace Scanner

variable {s : Scanner α} {u : α} {text text' rest rest' : List α}

@[simp] theorem pass_pass : (s.pass text rest).pass text' rest' = s.pass (text ++ text') rest' := by
  simp [pass]

theorem passWhile_pass (p : Char → Bool) :
    (s.pass text rest).passWhile p =
      s.pass (text ++ rest.takeWhile (p ∘ face)) (rest.dropWhile (p ∘ face)) :=
  pass_pass

@[simp] theorem token_pass (kind : TokenKind) (payload : Payload) :
    (s.begin.pass text rest).token kind payload = s.here.token kind payload (faces text) := by
  simp [token, Place.token, pass, begin, lexeme, Place.after]

/-- A number goes on over its digits, if no fraction follows. -/
theorem passDecimal_digits
    (hstop : ∀ point d more, rest.dropWhile (isDigit ∘ face) = point :: d :: more →
      face point = '.' → isDigit (face d) = false) :
    (s.pass [u] rest).passDecimal =
      s.pass (u :: rest.takeWhile (isDigit ∘ face)) (rest.dropWhile (isDigit ∘ face)) := by
  unfold passDecimal
  rw [passWhile_pass]
  dsimp only
  split
  · rename_i point d more hahead
    have hnot : ¬ (face point = '.' ∧ isDigit (face d) = true) := fun h => by
      rw [hstop point d more hahead h.1] at h
      cases h.2
    rw [if_neg hnot]
    rfl
  · rfl

/-- A number goes on over its digits, the point behind them and the digits of its fraction. -/
theorem passDecimal_fraction {point d : α} {more : List α}
    (hrest : rest.dropWhile (isDigit ∘ face) = point :: d :: more) (hpoint : face point = '.')
    (hd : isDigit (face d) = true) :
    (s.pass [u] rest).passDecimal =
      s.pass
        (u :: (rest.takeWhile (isDigit ∘ face) ++ point :: d :: more.takeWhile (isDigit ∘ face)))
        (more.dropWhile (isDigit ∘ face)) := by
  unfold passDecimal
  rw [passWhile_pass, hrest]
  show (if face point = '.' ∧ isDigit (face d) = true then
    ((s.pass _ _).pass [point] (d :: more)).passWhile isDigit else _) = _
  have hfirst : (isDigit ∘ face) d = true := hd
  rw [if_pos ⟨hpoint, hd⟩, pass_pass, passWhile_pass, List.takeWhile_cons_of_pos hfirst,
    List.dropWhile_cons_of_pos hfirst]
  simp

/-- A scanner reads the item ahead: it gives the item, and passes over the text of it. -/
def ReadsItem (s : Scanner α) (result : Except ScanFault Token × Scanner α) : Prop :=
  ∃ item text rest, s.ahead = text ++ rest ∧ text ≠ [] ∧ ItemAt s.here s.ahead text item ∧
    result = (item.outcome, s.begin.pass text rest)

theorem ReadsItem.token {kind : TokenKind} {payload : Payload}
    (hlongest : IsLongest kind (faces text) (faces s.ahead))
    (hpayload : Denotes kind (faces text) payload) (hahead : s.ahead = text ++ rest) :
    s.ReadsItem (.ok (s.here.token kind payload (faces text)), s.begin.pass text rest) := by
  have hunits := IsLongest.of_faces ⟨rest, hahead.symm⟩ hlongest
  refine ⟨_, text, rest, hahead, ?_, .token hunits hpayload, rfl⟩
  obtain ⟨u, units, rfl⟩ := hunits.lexeme.exists_units
  exact List.cons_ne_nil u units

/-! ## The forms one by one -/

theorem readNumber_eq {value : Binary64}
    (hdecimal : (s.begin.pass [u] rest).passDecimal = s.begin.pass text rest')
    (hvalue : Numeral.number? (faces text) = some value) :
    (s.begin.pass [u] rest).readNumber =
      (.ok (s.here.token .number (.number value) (faces text)), s.begin.pass text rest') := by
  unfold readNumber
  rw [hdecimal]
  simp [hvalue]

theorem readNumber_digits (hahead : s.ahead = u :: rest) (hu : isDigit (face u) = true)
    (hstop : ∀ point d more, rest.dropWhile (isDigit ∘ face) = point :: d :: more →
      face point = '.' → isDigit (face d) = false) :
    s.ReadsItem (s.begin.pass [u] rest).readNumber := by
  have hwhole : ∀ d ∈ face u :: (faces rest).takeWhile isDigit, isDigit d = true := by
    simpa [hu] using mem_takeWhile (faces rest)
  have htext : faces (u :: rest.takeWhile (isDigit ∘ face)) =
      face u :: (faces rest).takeWhile isDigit := by
    rw [faces_cons, takeWhile_faces]
  have hvalue := (congrArg Numeral.number? htext).trans
    (Numeral.number?_digits (List.cons_ne_nil _ _) hwhole)
  rw [readNumber_eq (passDecimal_digits hstop) hvalue]
  refine ReadsItem.token ?_ (.number hvalue) ?_
  · rw [hahead, htext, faces_cons]
    refine IsLongest.of_digits hu fun c more hrest => ?_
    rw [dropWhile_faces] at hrest
    obtain ⟨point, behind, hbehind, hpoint, hmore⟩ := faces_eq_cons_iff.1 hrest
    obtain ⟨d, more, rfl, rfl, -⟩ := faces_eq_cons_iff.1 hmore
    exact hstop point d more hbehind hpoint
  · rw [List.cons_append, List.takeWhile_append_dropWhile, hahead]

theorem readNumber_fraction {point d : α} {more : List α} (hahead : s.ahead = u :: rest)
    (hu : isDigit (face u) = true) (hrest : rest.dropWhile (isDigit ∘ face) = point :: d :: more)
    (hpoint : face point = '.') (hd : isDigit (face d) = true) :
    s.ReadsItem (s.begin.pass [u] rest).readNumber := by
  have hwhole : ∀ d ∈ face u :: (faces rest).takeWhile isDigit, isDigit d = true := by
    simpa [hu] using mem_takeWhile (faces rest)
  have hdigits : ∀ d' ∈ face d :: (faces more).takeWhile isDigit, isDigit d' = true := by
    simpa [hd] using mem_takeWhile (faces more)
  have htext : faces (u :: (rest.takeWhile (isDigit ∘ face) ++
      point :: d :: more.takeWhile (isDigit ∘ face))) =
      face u :: ((faces rest).takeWhile isDigit ++ '.' :: face d :: (faces more).takeWhile isDigit) := by
    simp [takeWhile_faces, hpoint]
  have hvalue := (congrArg Numeral.number? htext).trans
    (Numeral.number?_fraction (List.cons_ne_nil _ _) hwhole hdigits)
  rw [readNumber_eq (passDecimal_fraction hrest hpoint hd) hvalue]
  refine ReadsItem.token ?_ (.number hvalue) ?_
  · rw [hahead, htext, faces_cons]
    refine IsLongest.of_fraction hu ?_ hd
    rw [dropWhile_faces, hrest, faces_cons, faces_cons, hpoint]
  · have hsplit : rest.takeWhile (isDigit ∘ face) ++ point :: d :: more = rest := by
      rw [← hrest, List.takeWhile_append_dropWhile]
    rw [hahead, ← hsplit]
    simp [hsplit]

/-- Two characters behind the digits decide whether a fraction follows. -/
theorem readNumber_spec (hahead : s.ahead = u :: rest) (hu : isDigit (face u) = true) :
    s.ReadsItem (s.begin.pass [u] rest).readNumber := by
  by_cases hfraction : ∃ point d more, rest.dropWhile (isDigit ∘ face) = point :: d :: more ∧
      face point = '.' ∧ isDigit (face d) = true
  · obtain ⟨point, d, more, hrest, hpoint, hd⟩ := hfraction
    exact readNumber_fraction hahead hu hrest hpoint hd
  · refine readNumber_digits hahead hu fun point d more hrest hpoint => ?_
    rw [← Bool.not_eq_true]
    exact fun hd => hfraction ⟨point, d, more, hrest, hpoint, hd⟩

/-- The kinds of keywords, punctuation and signs carry nothing. -/
theorem denotes_keyword {kind : TokenKind} {word : List Char}
    (h : TokenKind.ofKeyword? word = some kind) : Denotes kind word .absent := by
  have hall : TokenKind.keywords.all (fun (_, kind) =>
      decide (kind ≠ .number ∧ kind ≠ .identifier)) = true := by decide
  have hkind := of_decide_eq_true (List.all_eq_true.1 hall _ (mem_of_lookup h))
  exact .fixed hkind.1 hkind.2

theorem denotes_punctuation {kind : TokenKind} {c : Char} {word : List Char}
    (h : TokenKind.ofPunctuation? c = some kind) : Denotes kind word .absent := by
  have hall : TokenKind.punctuation.all (fun (_, kind) =>
      decide (kind ≠ .number ∧ kind ≠ .identifier)) = true := by decide
  have hkind := of_decide_eq_true (List.all_eq_true.1 hall _ (mem_of_lookup h))
  exact .fixed hkind.1 hkind.2

theorem denotes_sign {alone doubled : TokenKind} {c : Char} {word : List Char}
    (h : TokenKind.ofSign? c = some (alone, doubled)) :
    Denotes alone word .absent ∧ Denotes doubled word .absent := by
  have hall : TokenKind.signs.all (fun (_, alone, doubled) =>
      decide ((alone ≠ .number ∧ alone ≠ .identifier) ∧
        (doubled ≠ .number ∧ doubled ≠ .identifier))) = true := by decide
  obtain ⟨⟨h₁, h₂⟩, h₃, h₄⟩ := of_decide_eq_true (List.all_eq_true.1 hall _ (mem_of_lookup h))
  exact ⟨.fixed h₁ h₂, .fixed h₃ h₄⟩

theorem readWord_spec (hahead : s.ahead = u :: rest) (hu : isNameStart (face u) = true) :
    ∃ t s', (s.begin.pass [u] rest).readWord = (t, s') ∧ s.ReadsItem (.ok t, s') := by
  have hsplit : s.ahead = u :: rest.takeWhile (isNamePart ∘ face) ++
      rest.dropWhile (isNamePart ∘ face) := by
    rw [List.cons_append, List.takeWhile_append_dropWhile, hahead]
  have hlongest : IsLongest (.ofWord (faces (u :: rest.takeWhile (isNamePart ∘ face))))
      (faces (u :: rest.takeWhile (isNamePart ∘ face))) (faces s.ahead) := by
    rw [hahead, faces_cons, faces_cons, ← takeWhile_faces]
    exact IsLongest.of_word hu
  unfold readWord
  rw [passWhile_pass]
  cases hkeyword : TokenKind.ofKeyword? (faces (u :: rest.takeWhile (isNamePart ∘ face))) with
  | none =>
    rw [TokenKind.ofWord, hkeyword] at hlongest
    refine ⟨_, _, ?_, ReadsItem.token hlongest .name hsplit⟩
    rw [faces_cons] at hkeyword
    simp [hkeyword]
  | some kind =>
    rw [TokenKind.ofWord, hkeyword] at hlongest
    refine ⟨_, _, ?_, ReadsItem.token hlongest (denotes_keyword hkeyword) hsplit⟩
    rw [faces_cons] at hkeyword
    simp [hkeyword]

theorem readSign_spec {alone doubled : TokenKind} (hahead : s.ahead = u :: rest)
    (hu : TokenKind.ofSign? (face u) = some (alone, doubled)) :
    ∃ t s', (s.begin.pass [u] rest).readSign alone doubled = (t, s') ∧
      s.ReadsItem (.ok t, s') := by
  have halone (hnot : (faces rest).head? ≠ some '=') :
      s.ReadsItem (.ok (s.here.token alone .absent (faces [u])), s.begin.pass [u] rest) := by
    refine ReadsItem.token ?_ (denotes_sign hu).1 hahead
    simpa [hahead] using IsLongest.of_sign hu hnot
  unfold readSign
  cases rest with
  | nil => exact ⟨_, _, rfl, token_pass (s := s) alone .absent ▸ halone (by simp)⟩
  | cons sign rest =>
    by_cases hsign : face sign = '='
    · have hlongest : IsLongest doubled (faces [u, sign]) (faces s.ahead) := by
        simpa [hahead, hsign] using IsLongest.of_doubled hu
      refine ⟨_, _, ?_, ReadsItem.token hlongest (denotes_sign hu).2 hahead⟩
      show (if face sign = '=' then _ else _) = _
      rw [if_pos hsign, pass_pass]
      simp only [token_pass]
      rfl
    · refine ⟨_, _, ?_, halone (by simpa [head?_faces] using hsign)⟩
      show (if face sign = '=' then _ else _) = _
      rw [if_neg hsign, token_pass]

/-- A character of no class begins no lexeme, so it is an error. -/
theorem itemAt_of_none {p : Place} (hpunctuation : TokenKind.ofPunctuation? (face u) = none)
    (hsign : TokenKind.ofSign? (face u) = none) (hdigit : isDigit (face u) = false)
    (hname : isNameStart (face u) = false) :
    ItemAt p (u :: rest) [u] (.error ⟨.unexpectedCharacter, p.position, TextUnit.shown u⟩) := by
  refine .error rfl fun kind text hlexeme hfront => ?_
  obtain ⟨v, units, rfl⟩ := hlexeme.exists_units
  obtain ⟨rfl, -⟩ := List.cons_prefix_cons.1 hfront
  rw [faces_cons] at hlexeme
  simpa [hpunctuation, hsign, hdigit, hname] using hlexeme.begins

/-- Scanning a token reads the item ahead, whatever characters follow. -/
theorem scanToken_spec (hahead : s.ahead = u :: rest) : s.ReadsItem s.scanToken := by
  have hadvance : s.begin.advance = (.ok u, s.begin.pass [u] rest) := by
    unfold advance
    rw [show s.begin.ahead = u :: rest from hahead]
  unfold scanToken
  rw [hadvance]
  dsimp only
  unfold readAfter
  cases hpunctuation : TokenKind.ofPunctuation? (face u) with
  | some kind =>
    dsimp only
    rw [token_pass]
    refine ReadsItem.token ?_ (denotes_punctuation hpunctuation) hahead
    simpa [hahead] using IsLongest.of_punctuation hpunctuation
  | none =>
    cases hsign : TokenKind.ofSign? (face u) with
    | some kinds =>
      obtain ⟨t, s', hrun, hreads⟩ := readSign_spec hahead hsign
      simpa only [hrun] using hreads
    | none =>
      dsimp only
      split_ifs with hdigit hname
      · exact readNumber_spec hahead hdigit
      · obtain ⟨t, s', hrun, hreads⟩ := readWord_spec hahead hname
        simpa only [hrun] using hreads
      · have hitem : ItemAt s.here (u :: rest) [u] _ := itemAt_of_none hpunctuation hsign
          (Bool.not_eq_true _ ▸ hdigit) (Bool.not_eq_true _ ▸ hname)
        exact ⟨_, [u], rest, hahead, List.cons_ne_nil u [], hahead ▸ hitem, rfl⟩

/-! ## Scanning a text -/

section

variable {rounds : Nat} {item : ScanItem} {s' : Scanner α}

/-- A round that finds an item adds it to those of the rounds behind it. -/
theorem scanRounds_item (hahead : s.skipBlanks.ahead = u :: rest)
    (hrun : s.skipBlanks.scanToken = (item.outcome, s')) (hworded : item.isWorded = true) :
    scanRounds (rounds + 1) s = withItem item (scanRounds rounds s') := by
  have hend : s.skipBlanks.atEnd = false := by rw [atEnd, hahead, List.isEmpty_cons]
  rw [scanRounds]
  simp only [hend, Bool.false_eq_true, if_false, hrun]
  cases item with
  | token t => rfl
  | error e =>
    have hraised : e.raised = .lexical e := if_pos hworded
    simp only [ScanItem.outcome, hraised]

/-- A round that finds an error that cannot be worded is the last. -/
theorem scanRounds_unworded (hahead : s.skipBlanks.ahead = u :: rest)
    (hrun : s.skipBlanks.scanToken = (item.outcome, s')) (hworded : item.isWorded = false) :
    scanRounds (rounds + 1) s = (.error .position, s') := by
  have hend : s.skipBlanks.atEnd = false := by rw [atEnd, hahead, List.isEmpty_cons]
  rw [scanRounds]
  simp only [hend, Bool.false_eq_true, if_false, hrun, ScanItem.outcome_of_not hworded]

end

/-- With a round for each character ahead, the items are those that divide the text ahead. -/
theorem scanRounds_spec (rounds : Nat) (s : Scanner α) (h : s.ahead.length ≤ rounds) :
    ∃ segments remainder items, (scanRounds rounds s).1 = ScanItem.raisedAll items ∧
      s.ahead = joined segments remainder ∧
      Divides s.tabSize s.here segments remainder items := by
  induction rounds generalizing s with
  | zero =>
    have hnil : s.ahead = [] := List.length_eq_zero_iff.1 (Nat.le_zero.1 h)
    exact ⟨[], [], [], rfl, hnil, .remainder (by simp)⟩
  | succ rounds ih =>
    -- the blanks ahead are the first part of a segment, or all that remains
    have hblank : ∀ u ∈ s.ahead.takeWhile (isBlank ∘ face), isBlank (face u) = true :=
      fun _ => List.mem_takeWhile_imp
    have hsplit : s.ahead.takeWhile (isBlank ∘ face) ++ s.ahead.dropWhile (isBlank ∘ face) =
        s.ahead := List.takeWhile_append_dropWhile
    cases hrest : s.ahead.dropWhile (isBlank ∘ face) with
    | nil =>
      rw [hrest, List.append_nil] at hsplit
      refine ⟨[], s.ahead, [], ?_, rfl, .remainder (hsplit ▸ hblank)⟩
      have hend : s.skipBlanks.atEnd = true := by
        show (s.ahead.dropWhile (isBlank ∘ face)).isEmpty = true
        rw [hrest, List.isEmpty_nil]
      unfold scanRounds
      simp only [hend, if_true]
      rfl
    | cons u rest =>
      have hahead : s.skipBlanks.ahead = u :: rest := hrest
      have hu : isBlank (face u) = false := by
        have hnot := List.head?_dropWhile_not (isBlank ∘ face) s.ahead
        rwa [hrest] at hnot
      obtain ⟨item, text, rest', htext, hne, hitem, hrun⟩ := scanToken_spec hahead
      rw [hahead] at htext hitem
      have hfirst : text.head? = some u := by
        obtain ⟨first, text', rfl⟩ := List.exists_cons_of_ne_nil hne
        cases htext
        rfl
      -- the item takes at least one character, so the rounds left are enough
      have hlength : rest'.length ≤ rounds := by
        have hall := congrArg List.length hsplit
        have hpart := congrArg List.length htext
        have hpos := List.length_pos_iff.2 hne
        simp only [hrest, List.length_append] at hall hpart
        omega
      obtain ⟨segments, remainder, items, hitems, hjoined, hdivides⟩ :=
        ih (s.skipBlanks.begin.pass text rest') hlength
      replace hjoined : rest' = joined segments remainder := hjoined
      refine ⟨(s.ahead.takeWhile (isBlank ∘ face), text) :: segments, remainder, item :: items, ?_, ?_, ?_⟩
      · cases hworded : item.isWorded with
        | true =>
          rw [scanRounds_item hahead hrun hworded, ScanItem.raisedAll_cons hworded, ← hitems]
          rfl
        | false =>
          rw [scanRounds_unworded hahead hrun hworded, ScanItem.raisedAll_cons_of_not hworded]
      · rw [joined, ← hjoined, ← htext, ← hrest, hsplit]
      · refine .item hblank hfirst hu ?_ ?_
        · rw [← hjoined, ← htext]
          exact hitem
        · rw [Place.after_append]
          exact hdivides

end Scanner

section

variable {tabSize : Int} {text : List α} {segments : List (List α × List α)}
  {remainder : List α} {items : List ScanItem}

/-- A scan divides the text into items. -/
theorem exists_divides (tabSize : Int) (text : List α) :
    ∃ segments remainder items, scan tabSize text = ScanItem.raisedAll items ∧
      text = joined segments remainder ∧ Divides tabSize .first segments remainder items :=
  Scanner.scanRounds_spec text.length (.ofText tabSize text) (Nat.le_refl text.length)

theorem exists_itemsAt (tabSize : Int) (text : List α) :
    ∃ items, scan tabSize text = ScanItem.raisedAll items ∧ ItemsAt tabSize .first text items := by
  obtain ⟨segments, remainder, items, hrun, htext, hdivides⟩ := exists_divides tabSize text
  exact ⟨items, hrun, segments, remainder, htext, hdivides⟩

theorem ItemsAt.scan_eq (h : ItemsAt tabSize .first text items) :
    scan tabSize text = ScanItem.raisedAll items := by
  obtain ⟨items', hrun, hitems⟩ := exists_itemsAt tabSize text
  rw [hrun, hitems.unique h]

/-- However a text is divided, the scan finds the items of that division. -/
theorem Divides.scan_joined (h : Divides tabSize .first segments remainder items) :
    scan tabSize (joined segments remainder) = ScanItem.raisedAll items :=
  ItemsAt.scan_eq ⟨segments, remainder, rfl, h⟩

/-- The items that a scan finds are those of the text. -/
theorem itemsAt_of_scan (h : scan tabSize text = .ok items) : ItemsAt tabSize .first text items := by
  obtain ⟨items', hrun, hitems⟩ := exists_itemsAt tabSize text
  exact ScanItem.eq_of_raisedAll (hrun.symm.trans h) ▸ hitems

/-- A scan finds tokens exactly if the text is made of them. -/
theorem scan_eq_tokens_iff {tokens : List Token} :
    scan tabSize text = .ok (tokens.map .token) ↔
      ItemsAt tabSize .first text (tokens.map .token) :=
  ⟨itemsAt_of_scan, fun h => h.scan_eq.trans (ScanItem.raisedAll_tokens tokens)⟩

/-! ## Texts whose positions can be written -/

theorem Position.line_after (p : Position) (tabSize : Int) (c : Char) :
    p.line ≤ (p.after tabSize c).line ∧ (p.after tabSize c).line ≤ p.line + 1 := by
  have hline : (p.after tabSize c).line = p.line ∨ (p.after tabSize c).line = p.line + 1 := by
    unfold after
    split_ifs <;> simp
  omega

theorem Position.line_afterAll (p : Position) (tabSize : Int) (text : List Char) :
    p.line ≤ (p.afterAll tabSize text).line ∧
      (p.afterAll tabSize text).line ≤ p.line + text.length := by
  induction text generalizing p with
  | nil => simp
  | cons c text ih =>
    have hstep := p.line_after tabSize c
    obtain ⟨hle, hle'⟩ := ih (p.after tabSize c)
    rw [afterAll_cons, List.length_cons]
    omega

/-- A text that can be counted has no errors on lines that cannot be written. -/
theorem Divides.isWorded (h : Divides tabSize .first segments remainder items)
    (hlength : (joined segments remainder).length < Nat.pow 10 Numeral.digitLimit)
    (hcolumn : ∀ front, front <+: joined segments remainder →
      Numeral.isWritable (Position.first.afterAll tabSize (faces front)).column = true) :
    ∀ item ∈ items, item.isWorded = true := by
  intro item hmem
  obtain ⟨front, ahead, text, hjoined, hahead, hitem⟩ :=
    h.exists_front (Place.after_nil ..).symm item hmem
  rw [List.nil_append] at hjoined
  cases hitem with
  | token hlongest hpayload => rfl
  | error hu hnone =>
    have hline : Numeral.isWritable (Position.first.afterAll tabSize (faces front)).line = true := by
      obtain ⟨hle, hle'⟩ := Position.line_afterAll .first tabSize (faces front)
      rw [length_faces] at hle'
      have hpos := List.length_pos_iff.2 hahead
      rw [hjoined, List.length_append] at hlength
      have hfirst : Position.first.line = 1 := rfl
      unfold Numeral.isWritable
      generalize Nat.pow 10 Numeral.digitLimit = bound at hlength ⊢
      exact decide_eq_true (by omega)
    exact Position.isWritable_iff.2 ⟨hline, hcolumn front ⟨ahead, hjoined.symm⟩⟩

end

/-! ## Texts of code points -/

/-- The span of a token is its text, which has no surrogates in it. -/
theorem ItemAt.eq_span {p : Place} {ahead text : List CodePoint} {t : Token}
    (h : ItemAt p ahead text (.token t)) : text = t.span.toList.map .char := by
  cases h with
  | token hlongest hpayload => simpa [Place.token] using hlongest.lexeme.eq_map_char

theorem Divides.forall₂_span {tabSize : Int} {p : Place} {remainder : List CodePoint}
    {segments : List (List CodePoint × List CodePoint)} {items : List ScanItem}
    (h : Divides tabSize p segments remainder items) :
    List.Forall₂ (fun segment item => ∀ t, item = .token t → segment.2 = t.span.toList.map .char)
      segments items := by
  induction h with
  | remainder hblank => exact .nil
  | item hblank hfirst hu hitem hrest ih => exact .cons (fun t ht => (ht ▸ hitem).eq_span) ih

/-- Every text of code points is scanned to items where all of its columns can be written, whatever the
width of a tab, and they are those of the one way to divide the text. The text of a token is its span.
The bound on the length is beyond any text that can be held, and keeps the numbers of lines short. -/
theorem scan_divides (tabSize : Int) (text : List CodePoint)
    (hlength : text.length < Nat.pow 10 Numeral.digitLimit)
    (hcolumn : ∀ front, front <+: text →
      Numeral.isWritable (Position.first.afterAll tabSize (faces front)).column = true) :
    ∃ segments remainder items, scan tabSize text = .ok items ∧
      text = joined segments remainder ∧ Divides tabSize .first segments remainder items ∧
      List.Forall₂ (fun segment item => ∀ t, item = .token t → segment.2 = t.span.toList.map .char)
        segments items ∧
      ∀ segments' remainder' items', text = joined segments' remainder' →
        Divides tabSize .first segments' remainder' items' →
        segments' = segments ∧ remainder' = remainder ∧ items' = items := by
  obtain ⟨segments, remainder, items, hrun, rfl, hdivides⟩ := exists_divides tabSize text
  refine ⟨segments, remainder, items, ?_, rfl, hdivides, hdivides.forall₂_span, ?_⟩
  · exact hrun.trans (ScanItem.raisedAll_of_worded (hdivides.isWorded hlength hcolumn))
  · intro segments' remainder' items' htext' hdivides'
    exact hdivides'.unique hdivides htext'.symm

/-- A surrogate and a null character within a text are an item each, and what follows them is another. -/
theorem scan_divides_surrogate :
    let stray : CodePoint := .surrogate ⟨0xDCFF, by decide, by decide⟩
    let text := [stray, .char '\x00', .char ';']
    text.length < Nat.pow 10 Numeral.digitLimit ∧
      (∀ front, front <+: text →
        Numeral.isWritable (Position.first.afterAll 4 (faces front)).column = true) ∧
      ∃ segments items, scan 4 text = .ok items ∧ text = joined segments [] ∧
        segments = [([], [stray]), ([], [.char '\x00']), ([], [.char ';'])] := by
  intro stray text
  have hlength : text.length < Nat.pow 10 Numeral.digitLimit := by decide +kernel
  have hinits : ∀ front ∈ text.inits,
      Numeral.isWritable (Position.first.afterAll 4 (faces front)).column = true := by
    decide +kernel
  have hcolumn := fun front hfront => hinits front ((List.mem_inits front text).2 hfront)
  obtain ⟨segments, remainder, items, hrun, htext, hdivides, -, hunique⟩ :=
    scan_divides 4 text hlength hcolumn
  have hsemicolon : IsLongest .semicolon [CodePoint.char ';'] [.char ';'] :=
    .of_faces (List.prefix_refl _) (IsLongest.of_punctuation rfl)
  have hsegments : Divides 4 .first [([], [stray]), ([], [.char '\x00']), ([], [.char ';'])] [] _ :=
    .item (by simp) rfl (by decide) (Scanner.itemAt_of_none rfl rfl rfl (by decide +kernel))
      (.item (by simp) rfl (by decide) (Scanner.itemAt_of_none rfl rfl rfl (by decide +kernel))
        (.item (by simp) rfl (by decide)
          (.token hsemicolon (Scanner.denotes_punctuation (c := ';') rfl)) (.remainder (by simp))))
  obtain ⟨rfl, rfl, -⟩ := hunique _ _ _ rfl hsegments
  exact ⟨hlength, hcolumn, _, items, hrun, htext, rfl⟩

end

end ExprFront
