import ExprFront.Proofs.Scan.Cutting
import ExprFront.Text.Utf8
import Mathlib.Data.List.Infix

/-!
# Carriage returns

A file is read with its line ends made line feeds, a program on the command line as it is. A carriage
return before a line feed makes no difference but to the offsets behind it: it has no width, it ends
no line, and what ends a token there is a blank in any case.
-/

namespace ExprFront

/-! ## Line ends -/

/-- Every carriage return is directly followed by a line feed. -/
def ReturnsFeed (text : List Char) : Prop :=
  ∀ front rest, text = front ++ '\r' :: rest → rest.head? = some '\n'

/-- A text without its carriage returns. -/
def withoutReturns (text : List Char) : List Char :=
  text.filter (· ≠ '\r')

section

variable {text front : List Char} {c : Char}

@[simp] theorem withoutReturns_return (text : List Char) :
    withoutReturns ('\r' :: text) = withoutReturns text := rfl

theorem withoutReturns_cons (hc : c ≠ '\r') (text : List Char) :
    withoutReturns (c :: text) = c :: withoutReturns text := by
  simp [withoutReturns, hc]

@[simp] theorem withoutReturns_append (front text : List Char) :
    withoutReturns (front ++ text) = withoutReturns front ++ withoutReturns text :=
  List.filter_append ..

theorem withoutReturns_eq_self (h : '\r' ∉ text) : withoutReturns text = text := by
  refine List.filter_eq_self.2 fun c hc => decide_eq_true ?_
  rintro rfl
  exact h hc

theorem takeWhile_withoutReturns {p : Char → Bool} (hp : p '\r' = true) (text : List Char) :
    (withoutReturns text).takeWhile p = withoutReturns (text.takeWhile p) := by
  have hkept : (fun c => !decide (c ≠ '\r') || p c) = p := by
    funext c
    by_cases hc : c = '\r' <;> simp [hc, hp]
  unfold withoutReturns
  rw [List.takeWhile_filter, hkept]

theorem ReturnsFeed.of_append (h : ReturnsFeed (front ++ text)) : ReturnsFeed text := by
  rintro front' rest rfl
  exact h (front ++ front') rest (List.append_assoc ..).symm

theorem ReturnsFeed.of_cons (h : ReturnsFeed (c :: text)) : ReturnsFeed text :=
  @ReturnsFeed.of_append text [c] h

/-- A part of the text up to a character that is no line feed cuts no carriage return from its own. -/
theorem ReturnsFeed.takeWhile (h : ReturnsFeed text) {p : Char → Bool} (hp : p '\n' = true) :
    ReturnsFeed (text.takeWhile p) := by
  intro front rest hfront
  have htext : text = front ++ '\r' :: (rest ++ text.dropWhile p) := by
    rw [← List.cons_append, ← List.append_assoc, ← hfront, List.takeWhile_append_dropWhile]
  have hhead : (rest ++ text.dropWhile p).head? = some '\n' := h front _ htext
  cases rest with
  | nil =>
    have hnot := List.head?_dropWhile_not p text
    rw [← List.nil_append (text.dropWhile p), hhead] at hnot
    cases hp.symm.trans hnot
  | cons c rest => exact hhead

theorem ReturnsFeed.exists_feed (h : ReturnsFeed ('\r' :: text)) :
    ∃ rest, text = '\n' :: rest :=
  List.head?_eq_some_iff.1 (h [] text rfl)

theorem returnsFeed_iff :
    ReturnsFeed text ↔
      ∀ rest ∈ text.tails, rest.head? = some '\r' → rest.tail.head? = some '\n' := by
  constructor
  · intro h rest hrest hhead
    obtain ⟨front, rfl⟩ := (List.mem_tails _ _).1 hrest
    obtain ⟨rest, rfl⟩ := List.head?_eq_some_iff.1 hhead
    exact h front rest rfl
  · rintro h front rest rfl
    exact h ('\r' :: rest) ((List.mem_tails _ _).2 (List.suffix_append _ _)) rfl

instance : Decidable (ReturnsFeed text) :=
  decidable_of_iff _ returnsFeed_iff.symm

/-- Where every carriage return has its line feed, making line ends line feeds drops it. -/
theorem ReturnsFeed.unifyNewlines (h : ReturnsFeed text) :
    Utf8.unifyNewlines text = withoutReturns text := by
  induction text using Utf8.unifyNewlines.induct with
  | case1 => rfl
  | case2 rest ih =>
    rw [Utf8.unifyNewlines, ih h.of_cons.of_cons]
    rfl
  | case3 c rest hfeed ih =>
    have hc : c ≠ '\r' := by
      rintro rfl
      obtain ⟨rest', rfl⟩ := h.exists_feed
      exact hfeed rest' rfl rfl
    rw [Utf8.unifyNewlines, ih h.of_cons, if_neg hc, withoutReturns_cons hc]
    exact hfeed

/-- What a text without blanks begins is the same without the carriage returns. -/
theorem ReturnsFeed.prefix_withoutReturns_iff (h : ReturnsFeed text) {word : List Char}
    (hword : ∀ c ∈ word, isBlank c = false) : word <+: withoutReturns text ↔ word <+: text := by
  induction text generalizing word with
  | nil => rfl
  | cons c text ih =>
    cases word with
    | nil => simp
    | cons d word =>
      obtain ⟨hd, hword⟩ := List.forall_mem_cons.1 hword
      by_cases hc : c = '\r'
      -- behind a carriage return there is a line feed, and neither is in the word
      · subst hc
        obtain ⟨rest, rfl⟩ := h.exists_feed
        have hne : d ≠ '\r' ∧ d ≠ '\n' := by
          constructor <;> rintro rfl <;> cases hd
        rw [withoutReturns_return, withoutReturns_cons (by decide), List.cons_prefix_cons,
          List.cons_prefix_cons]
        simp [hne]
      · rw [withoutReturns_cons hc, List.cons_prefix_cons, List.cons_prefix_cons,
          ih h.of_cons hword]

/-- A carriage return has no width. -/
theorem Position.afterAll_withoutReturns (tabSize : Int) (p : Position) (text : List Char) :
    p.afterAll tabSize (withoutReturns text) = p.afterAll tabSize text := by
  induction text generalizing p with
  | nil => rfl
  | cons c text ih =>
    by_cases hc : c = '\r'
    · subst hc
      exact ih p
    · rw [withoutReturns_cons hc, afterAll_cons, afterAll_cons, ih]

end

/-! ## Items up to their offsets -/

/-- The token with its offsets reckoned from its own first character. -/
def Token.fromZero (t : Token) : Token :=
  { t with start := 0, stop := t.stop - t.start }

/-- The item with offsets reckoned from its own first character. -/
def ScanItem.fromZero : ScanItem → ScanItem
  | .token t => .token t.fromZero
  | .error e => .error e

section

variable {tabSize : Int} {p q : Place} {text ahead ahead' : List Char} {item : ScanItem}
  {items : List ScanItem}

/-- Items are worded alike whatever the offsets are. -/
theorem ScanItem.raisedAll_fromZero (items : List ScanItem) :
    raisedAll (items.map fromZero) = (raisedAll items).map (List.map fromZero) := by
  have hsame : isWorded ∘ fromZero = isWorded := by
    funext item
    cases item <;> simp only [Function.comp_apply, fromZero, isWorded]
  unfold raisedAll
  rw [List.all_map, hsame]
  split <;> rfl

/-- An item is decided by its position and by the texts without blanks that are ahead. -/
theorem ItemAt.exists_fromZero (h : ItemAt p ahead text item)
    (htext : ∀ c ∈ text, isBlank c = false) (hposition : q.position = p.position)
    (hahead : ∀ word : List Char, (∀ c ∈ word, isBlank c = false) →
      (word <+: ahead' ↔ word <+: ahead)) :
    ∃ item', ItemAt q ahead' text item' ∧ item'.fromZero = item.fromZero := by
  cases h with
  | @token kind text payload hlongest hpayload =>
    obtain ⟨hlexeme, hbegins, hall⟩ := hlongest
    refine ⟨_, .token ⟨hlexeme, (hahead text htext).2 hbegins, ?_⟩ hpayload, ?_⟩
    · intro kind' text' hlexeme' hbegins'
      exact hall kind' text' hlexeme' ((hahead text' hlexeme'.not_blank).1 hbegins')
    · simp [ScanItem.fromZero, Token.fromZero, Place.token, hposition]
  | @error c hc hnone =>
    obtain ⟨rest, rfl⟩ := List.head?_eq_some_iff.1 hc
    obtain ⟨rest', rfl⟩ : ∃ rest', ahead' = [c] ++ rest' :=
      ((hahead [c] htext).2 (List.prefix_append [c] rest)).imp fun _ => Eq.symm
    refine ⟨_, .error rfl fun kind word hlexeme hbegins => ?_, ?_⟩
    · exact hnone kind word hlexeme ((hahead word hlexeme.not_blank).1 hbegins)
    · rw [ScanItem.fromZero, ScanItem.fromZero, hposition]

/-- The text of an item has no blanks if its first character is none. -/
theorem ItemAt.text_not_blank {c : Char} (h : ItemAt p ahead text item)
    (hfirst : text.head? = some c) (hc : isBlank c = false) : ∀ d ∈ text, isBlank d = false := by
  cases h with
  | token hlongest => exact hlongest.lexeme.not_blank
  | error =>
    cases hfirst
    simpa using hc

/-- What a text is divided into is, up to offsets, what it is divided into without its carriage
returns. -/
theorem Divides.exists_withoutReturns {segments : List (List Char × List Char)}
    {remainder : List Char} (h : Divides tabSize p segments remainder items)
    (hreturns : ReturnsFeed (joined segments remainder)) (hposition : q.position = p.position) :
    ∃ items', ItemsAt tabSize q (withoutReturns (joined segments remainder)) items' ∧
      items'.map ScanItem.fromZero = items.map ScanItem.fromZero := by
  induction h generalizing q with
  | @remainder p blank hblank =>
    exact ⟨[], .of_blank fun c hc => hblank c (List.mem_of_mem_filter hc), rfl⟩
  | @item p blank text remainder c segments item items hblank hfirst hc hitem hrest ih =>
    have htext := hitem.text_not_blank hfirst hc
    have hreturn : '\r' ∉ text := fun hmem => by cases htext _ hmem
    have hbehind : ReturnsFeed (text ++ joined segments remainder) := hreturns.of_append
    have hplace : ∀ before, (q.after tabSize (withoutReturns before)).position =
        (p.after tabSize before).position := fun before => by
      simp only [Place.after, hposition, faces_chars, Position.afterAll_withoutReturns]
    obtain ⟨item', hitem', hsame⟩ := hitem.exists_fromZero htext (hplace blank) fun word hword =>
      hbehind.prefix_withoutReturns_iff hword
    obtain ⟨items', hitems', hsames⟩ := ih hbehind.of_append (hplace (blank ++ text))
    rw [withoutReturns_append, withoutReturns_eq_self hreturn] at hitem' hitems'
    refine ⟨item' :: items', ?_, by rw [List.map_cons, List.map_cons, hsame, hsames]⟩
    rw [joined, withoutReturns_append, withoutReturns_append, withoutReturns_eq_self hreturn]
    refine .cons (fun c hc => hblank c (List.mem_of_mem_filter hc)) hfirst hc hitem' ?_
    exact hitems'

/-- Without the carriage returns before its line feeds a text is scanned to the same items up to their
offsets. -/
theorem scan_withoutReturns (tabSize : Int) (h : ReturnsFeed text) :
    (scan tabSize (withoutReturns text)).map (List.map ScanItem.fromZero) =
      (scan tabSize text).map (List.map ScanItem.fromZero) := by
  obtain ⟨segments, remainder, items, hrun, rfl, hdivides⟩ := exists_divides tabSize text
  obtain ⟨items', hitems', hsame⟩ := hdivides.exists_withoutReturns h rfl
  rw [hrun, hitems'.scan_eq, ← ScanItem.raisedAll_fromZero, hsame, ScanItem.raisedAll_fromZero]

end

end ExprFront
