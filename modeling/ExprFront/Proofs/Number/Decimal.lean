import ExprFront.Number.Format
import ExprFront.Number.Numeral
import Mathlib.Data.List.TakeWhile

/-!
# Reading numbers as they are written

Numbers are written in ASCII without white space or underscores, so nothing in them is trimmed or
joined. A text of this sort that has a digit after its sign is a decimal: whole digits, a fraction or
none, and an exponent or none.
-/

namespace ExprFront.Numeral

/-- The characters besides digits that numbers are written with: the point, the mark and the signs
of exponents, and the letters of the names for infinity and the undefined value. -/
def marks : List Char := ['.', 'e', '+', '-', 'i', 'n', 'f', 'a']

/-- Can the character stand in a number as it is written? -/
def isPart (c : Char) : Bool :=
  isDigit c || marks.contains c

section

variable {c : Char} {text whole fraction rest : List Char} {negative : Bool}

theorem isDigit_iff : isDigit c = true ↔ 0x30 ≤ c.toNat ∧ c.toNat ≤ 0x39 := by
  simp only [isDigit, Bool.and_eq_true, decide_eq_true_eq, Char.le_def]
  exact Iff.rfl

/-- A character in a class is none outside it. -/
theorem ne_of_class {p : Char → Bool} {d : Char} (h : p c = true) (hd : p d = false) : c ≠ d := by
  intro heq
  rw [heq, hd] at h
  cases h

theorem isPart_of_isDigit (h : isDigit c = true) : isPart c = true := by
  rw [isPart, h, Bool.true_or]

theorem toNat_of_isPart (h : isPart c = true) : 0x2B ≤ c.toNat ∧ c.toNat ≤ 0x6E := by
  simp only [isPart, Bool.or_eq_true, List.contains_iff_mem] at h
  rcases h with h | h
  · have hdigit := isDigit_iff.1 h
    omega
  · have hall : marks.all (fun c => 0x2B ≤ c.toNat && c.toNat ≤ 0x6E) = true := by decide
    simpa using List.all_eq_true.1 hall c h

/-! ## Normal forms -/

theorem plain_of_isPart (h : isPart c = true) : plain c = c := by
  have hlt : c.toNat < 0x80 := by
    have hrange := toNat_of_isPart h
    omega
  simp only [plain, hlt, if_true]

theorem isAsciiSpace_of_isPart (h : isPart c = true) : isAsciiSpace c = false := by
  have hrange := toNat_of_isPart h
  have hspace : c ≠ ' ' := ne_of_class h rfl
  simp [isAsciiSpace, hspace]
  omega

theorem trim_eq_self (h : ∀ c ∈ text, isAsciiSpace c = false) : trim text = text := by
  have hself : ∀ t : List Char, (∀ c ∈ t, isAsciiSpace c = false) →
      t.dropWhile isAsciiSpace = t := by
    intro t ht
    refine List.dropWhile_eq_self_iff.2 fun hlength => ?_
    simp [ht _ (List.getElem_mem hlength)]
  unfold trim
  rw [hself text h, hself text.reverse (by simpa using h), List.reverse_reverse]

theorem joinGroups_eq_some (afterDigit : Bool) (h : ∀ c ∈ text, c ≠ '_') :
    joinGroups afterDigit text = some text := by
  induction text generalizing afterDigit with
  | nil => rfl
  | cons c rest ih =>
    have hrest := ih (isDigit c) fun d hd => h d (.tail _ hd)
    simp only [joinGroups, h c (.head _), if_false, hrest, Option.map_some]

/-- A number is written in normal form. -/
theorem normal?_eq_some (h : ∀ c ∈ text, isPart c = true) : normal? text = some text := by
  have hplain : text.map plain = text := calc
    text.map plain = text.map id := List.map_congr_left fun c hc => plain_of_isPart (h c hc)
    _ = text := List.map_id text
  unfold normal?
  rw [hplain, trim_eq_self fun c hc => isAsciiSpace_of_isPart (h c hc)]
  exact joinGroups_eq_some false fun c hc => ne_of_class (h c hc) rfl

theorem toLower_of_isDigit (h : isDigit c = true) : c.toLower = c := by
  unfold Char.toLower
  rw [dif_neg]
  rintro ⟨hupper, -⟩
  have hle : 'A'.toNat ≤ c.toNat := hupper
  exact absurd (Nat.le_trans hle (isDigit_iff.1 h).2) (by decide)

theorem splitSign_signed (hc : isDigit c = true) :
    splitSign (NumberFormat.signed negative (c :: text)) = (negative, c :: text) := by
  have hminus : c ≠ '-' := ne_of_class hc rfl
  have hplus : c ≠ '+' := ne_of_class hc rfl
  cases negative with
  | true => rfl
  | false =>
    unfold NumberFormat.signed splitSign
    split <;> simp_all

/-- What is written with a digit after its sign is read as a decimal. -/
theorem number?_signed (negative : Bool) (hc : isDigit c = true) (h : ∀ d ∈ text, isPart d = true) :
    number? (NumberFormat.signed negative (c :: text)) = decimal? negative (c :: text) := by
  have hparts : ∀ d ∈ c :: text, isPart d = true :=
    List.forall_mem_cons.2 ⟨isPart_of_isDigit hc, h⟩
  have hnormal : normal? (NumberFormat.signed negative (c :: text)) =
      some (NumberFormat.signed negative (c :: text)) := by
    refine normal?_eq_some ?_
    cases negative with
    | true => exact List.forall_mem_cons.2 ⟨rfl, hparts⟩
    | false => exact hparts
  have hlower : c.toLower = c := toLower_of_isDigit hc
  -- the names of infinity and of the undefined value begin with letters
  have hi : c ≠ 'i' := ne_of_class hc rfl
  have hn : c ≠ 'n' := ne_of_class hc rfl
  simp [number?, hnormal, splitSign_signed hc, hlower, infinityNames, undefinedName, hi, hn]

/-! ## Decimals -/

/-- The digits of a text end where something else begins. -/
theorem takeWhile_append_of_head (h : ∀ c ∈ whole, isDigit c = true)
    (hrest : ∀ c ∈ rest.head?, isDigit c = false) : (whole ++ rest).takeWhile isDigit = whole := by
  rw [List.takeWhile_append_of_pos h]
  cases rest with
  | nil => exact List.append_nil whole
  | cons c rest => simp [hrest c rfl]

theorem dropWhile_append_of_head (h : ∀ c ∈ whole, isDigit c = true)
    (hrest : ∀ c ∈ rest.head?, isDigit c = false) : (whole ++ rest).dropWhile isDigit = rest := by
  rw [List.dropWhile_append_of_pos h]
  cases rest with
  | nil => rfl
  | cons c rest => simp [hrest c rfl]

theorem isDigit_head_point : ∀ c ∈ ('.' :: text).head?, isDigit c = false := by
  rintro c ⟨⟩
  rfl

theorem takeWhile_isDigit (h : ∀ c ∈ whole, isDigit c = true) :
    (whole ++ '.' :: text).takeWhile isDigit = whole :=
  takeWhile_append_of_head h isDigit_head_point

theorem dropWhile_isDigit (h : ∀ c ∈ whole, isDigit c = true) :
    (whole ++ '.' :: text).dropWhile isDigit = '.' :: text :=
  dropWhile_append_of_head h isDigit_head_point

/-- Does the text go on with neither a digit nor a point? -/
def EndsDigits (rest : List Char) : Prop :=
  ∀ c ∈ rest.head?, isDigit c = false ∧ c ≠ '.'

theorem EndsDigits.nil : EndsDigits [] := nofun

theorem EndsDigits.isDigit_head (h : EndsDigits rest) : ∀ c ∈ rest.head?, isDigit c = false :=
  fun c hc => (h c hc).1

theorem decimal?_whole (negative : Bool) (hne : whole ≠ []) (h : ∀ c ∈ whole, isDigit c = true)
    (hrest : EndsDigits rest) :
    decimal? negative (whole ++ rest) =
      (exponent? rest).map fun exponent => .ofDecimal negative (digitsValue whole) exponent := by
  have hsplit : splitFraction (whole ++ rest) = (whole, [], rest) := by
    unfold splitFraction
    rw [takeWhile_append_of_head h hrest.isDigit_head, dropWhile_append_of_head h hrest.isDigit_head]
    cases rest with
    | nil => rfl
    | cons c rest =>
      have hpoint := (hrest c rfl).2
      split <;> simp_all
  simp [decimal?, hsplit, hne]

theorem decimal?_fraction (negative : Bool) (hne : whole ≠ []) (h : ∀ c ∈ whole, isDigit c = true)
    (hfraction : ∀ c ∈ fraction, isDigit c = true) (hrest : EndsDigits rest) :
    decimal? negative (whole ++ '.' :: (fraction ++ rest)) =
      (exponent? rest).map fun exponent =>
        .ofDecimal negative (digitsValue (whole ++ fraction)) (exponent - fraction.length) := by
  have hsplit : splitFraction (whole ++ '.' :: (fraction ++ rest)) = (whole, fraction, rest) := by
    unfold splitFraction
    rw [takeWhile_isDigit h, dropWhile_isDigit h]
    show (whole, (fraction ++ rest).takeWhile isDigit, (fraction ++ rest).dropWhile isDigit) = _
    rw [takeWhile_append_of_head hfraction hrest.isDigit_head,
      dropWhile_append_of_head hfraction hrest.isDigit_head]
  simp [decimal?, hsplit, hne]

/-- Digits write the number that they count up to. -/
theorem number?_digits (hne : whole ≠ []) (h : ∀ c ∈ whole, isDigit c = true) :
    number? whole = some (.ofDecimal false (digitsValue whole) 0) := by
  have hdecimal := decimal?_whole false hne h .nil
  obtain ⟨c, rest, rfl⟩ := List.exists_cons_of_ne_nil hne
  obtain ⟨hc, hrest⟩ := List.forall_mem_cons.1 h
  have hnumber : number? (c :: rest) = decimal? false (c :: rest) :=
    number?_signed false hc fun d hd => isPart_of_isDigit (hrest d hd)
  rw [hnumber, ← List.append_nil (c :: rest), hdecimal, List.append_nil]
  rfl

/-- Digits with a fraction write the number that all the digits count up to, scaled down. -/
theorem number?_fraction (hne : whole ≠ []) (h : ∀ c ∈ whole, isDigit c = true)
    (hfraction : ∀ c ∈ fraction, isDigit c = true) :
    number? (whole ++ '.' :: fraction) =
      some (.ofDecimal false (digitsValue (whole ++ fraction)) (-fraction.length)) := by
  have hdecimal := decimal?_fraction false hne h hfraction .nil
  rw [List.append_nil] at hdecimal
  obtain ⟨c, rest, rfl⟩ := List.exists_cons_of_ne_nil hne
  obtain ⟨hc, hrest⟩ := List.forall_mem_cons.1 h
  have hparts : ∀ d ∈ rest ++ '.' :: fraction, isPart d = true := by
    refine List.forall_mem_append.2 ⟨fun d hd => isPart_of_isDigit (hrest d hd), ?_⟩
    exact List.forall_mem_cons.2 ⟨rfl, fun d hd => isPart_of_isDigit (hfraction d hd)⟩
  have hnumber : number? (c :: (rest ++ '.' :: fraction)) =
      decimal? false (c :: (rest ++ '.' :: fraction)) := number?_signed false hc hparts
  rw [List.cons_append, hnumber, ← List.cons_append, hdecimal]
  simp [exponent?]

end

end ExprFront.Numeral
