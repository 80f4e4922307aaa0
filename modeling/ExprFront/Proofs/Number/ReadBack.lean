import ExprFront.Proofs.Number.Decimal
import ExprFront.Proofs.Number.Rounding

/-!
# Numbers read back

The text of a number is read as that number: however its digits are laid out, they are read as the
decimal they were taken from, and that decimal is rounded to the number. So different numbers have
different texts.
-/

namespace ExprFront

/-! ## Values of digits -/

namespace Numeral

section

variable {digits : List Char} {n : Nat}

theorem digitsValue_eq (digits : List Char) : digitsValue digits = Nat.ofDigitChars 10 digits 0 :=
  rfl

theorem digitsValue_toDigits (n : Nat) : digitsValue (Nat.toDigits 10 n) = n := by
  rw [digitsValue_eq, Nat.ofDigitChars_ten_toDigits]

theorem digitsValue_append_zeros (digits : List Char) (n : Nat) :
    digitsValue (digits ++ List.replicate n '0') = digitsValue digits * 10 ^ n := by
  rw [digitsValue_eq, Nat.ofDigitChars_append, Nat.ofDigitChars_replicate_zero, Nat.mul_comm,
    digitsValue_eq]

theorem digitsValue_zeros_append (n : Nat) (digits : List Char) :
    digitsValue (List.replicate n '0' ++ digits) = digitsValue digits := by
  rw [digitsValue_eq, Nat.ofDigitChars_append, Nat.ofDigitChars_replicate_zero, Nat.mul_zero,
    digitsValue_eq]

theorem isDigit_of_mem_toDigits {c : Char} (h : c ∈ Nat.toDigits 10 n) : isDigit c = true := by
  rw [isDigit_eq]
  exact Nat.isDigit_of_mem_toDigits (by decide) (Nat.le_refl 10) h

theorem isDigit_of_mem_zeros {c : Char} (h : c ∈ List.replicate n '0') : isDigit c = true := by
  rw [List.eq_of_mem_replicate h]
  rfl

end

end Numeral

/-! ## Layouts -/

namespace NumberFormat

open Numeral

/-- The text begins with a digit and goes on with what numbers are written with, and it is read as
the number. -/
structure Writes (negative : Bool) (text : List Char) (x : Binary64) : Prop where
  begins : ∃ c rest, text = c :: rest ∧ isDigit c = true ∧ ∀ d ∈ rest, isPart d = true
  reads : decimal? negative text = some x

/-- The decimal of digits whose first one has this exponent. -/
def decimalOf (negative : Bool) (digits : List Char) (exponent : Int) : Binary64 :=
  .ofDecimal negative (digitsValue digits) (exponent + 1 - digits.length)

section

variable {digits whole fraction rest : List Char} {exponent : Int} {negative : Bool} {x : Binary64}

theorem exists_digit_cons (hne : whole ≠ []) (h : ∀ c ∈ whole, isDigit c = true)
    (hrest : ∀ c ∈ rest, isPart c = true) :
    ∃ c rest', whole ++ rest = c :: rest' ∧ isDigit c = true ∧ ∀ d ∈ rest', isPart d = true := by
  obtain ⟨c, whole, rfl⟩ := List.exists_cons_of_ne_nil hne
  obtain ⟨hc, hwhole⟩ := List.forall_mem_cons.1 h
  exact ⟨c, whole ++ rest, rfl, hc,
    List.forall_mem_append.2 ⟨fun d hd => isPart_of_isDigit (hwhole d hd), hrest⟩⟩

theorem Writes.of_whole (hne : whole ≠ []) (h : ∀ c ∈ whole, isDigit c = true)
    (hrest : ∀ c ∈ rest, isPart c = true) (hend : EndsDigits rest)
    (hexponent : exponent? rest = some exponent)
    (hx : .ofDecimal negative (digitsValue whole) exponent = x) :
    Writes negative (whole ++ rest) x := by
  refine ⟨exists_digit_cons hne h hrest, ?_⟩
  rw [decimal?_whole negative hne h hend, hexponent, Option.map_some, hx]

theorem Writes.of_fraction (hne : whole ≠ []) (h : ∀ c ∈ whole, isDigit c = true)
    (hfraction : ∀ c ∈ fraction, isDigit c = true) (hrest : ∀ c ∈ rest, isPart c = true)
    (hend : EndsDigits rest) (hexponent : exponent? rest = some exponent)
    (hx : .ofDecimal negative (digitsValue (whole ++ fraction)) (exponent - fraction.length) = x) :
    Writes negative (whole ++ '.' :: (fraction ++ rest)) x := by
  refine ⟨exists_digit_cons hne h ?_, ?_⟩
  · refine List.forall_mem_cons.2 ⟨rfl, List.forall_mem_append.2 ⟨fun c hc => ?_, hrest⟩⟩
    exact isPart_of_isDigit (hfraction c hc)
  · rw [decimal?_fraction negative hne h hfraction hend, hexponent, Option.map_some, hx]

theorem Writes.of_point (hne : whole ≠ []) (h : ∀ c ∈ whole, isDigit c = true)
    (hfraction : ∀ c ∈ fraction, isDigit c = true)
    (hx : .ofDecimal negative (digitsValue (whole ++ fraction)) (-fraction.length) = x) :
    Writes negative (whole ++ '.' :: fraction) x := by
  rw [← List.append_nil fraction]
  exact .of_fraction hne h hfraction nofun .nil rfl (by rwa [Int.zero_sub])

/-! ### With a point -/

/-- A negative exponent is written as zeros in front of the digits. -/
theorem positional_shifted (h : exponent < 0) :
    positional digits exponent =
      ['0'] ++ '.' :: (List.replicate (-exponent - 1).toNat '0' ++ digits) := by
  simp [positional, h]

/-- Digits that all stand before the point are filled up with zeros. -/
theorem positional_padded (h : 0 ≤ exponent) (hfits : digits.length ≤ exponent.toNat + 1) :
    positional digits exponent =
      digits ++ List.replicate (exponent.toNat + 1 - digits.length) '0' ++ '.' ::
        List.replicate 1 '0' := by
  simp [positional, Int.not_lt.2 h, List.take_of_length_le hfits, List.drop_eq_nil_iff.2 hfits]

theorem positional_split (h : 0 ≤ exponent) (hfits : ¬digits.length ≤ exponent.toNat + 1) :
    positional digits exponent =
      digits.take (exponent.toNat + 1) ++ '.' :: digits.drop (exponent.toNat + 1) := by
  have hnone : exponent.toNat + 1 - digits.length = 0 := by omega
  simp [positional, Int.not_lt.2 h, hnone, hfits]

theorem writes_shifted (h : ∀ c ∈ digits, isDigit c = true) (hsmall : exponent < 0) :
    Writes negative (positional digits exponent) (decimalOf negative digits exponent) := by
  rw [positional_shifted hsmall]
  generalize hcount : (-exponent - 1).toNat = count
  have hdigits : ∀ c ∈ List.replicate count '0' ++ digits, isDigit c = true :=
    List.forall_mem_append.2 ⟨fun _ => isDigit_of_mem_zeros, h⟩
  have hzero : ∀ c ∈ List.replicate 1 '0', isDigit c = true := fun _ => isDigit_of_mem_zeros
  refine .of_point (List.cons_ne_nil '0' []) hzero hdigits ?_
  have hexponent : -((List.replicate count '0' ++ digits).length : Int) =
      exponent + 1 - digits.length := by
    rw [List.length_append, List.length_replicate]
    omega
  rw [decimalOf, hexponent, ← List.append_assoc, ← List.replicate_one,
    List.replicate_append_replicate, digitsValue_zeros_append]

theorem writes_padded (hne : digits ≠ []) (h : ∀ c ∈ digits, isDigit c = true)
    (hlarge : 0 ≤ exponent) (hfits : digits.length ≤ exponent.toNat + 1) :
    Writes negative (positional digits exponent) (decimalOf negative digits exponent) := by
  rw [positional_padded hlarge hfits]
  generalize hcount : exponent.toNat + 1 - digits.length = count
  have hdigits : ∀ c ∈ digits ++ List.replicate count '0', isDigit c = true :=
    List.forall_mem_append.2 ⟨h, fun _ => isDigit_of_mem_zeros⟩
  refine .of_point (List.append_ne_nil_of_left_ne_nil hne _) hdigits
    (fun _ => isDigit_of_mem_zeros) ?_
  have hexponent : -((List.replicate 1 '0').length : Int) + (count + 1 : Nat) =
      exponent + 1 - digits.length := by
    rw [List.length_replicate]
    omega
  rw [decimalOf, List.append_assoc, List.replicate_append_replicate, digitsValue_append_zeros,
    Binary64.ofDecimal_shift, hexponent]

theorem writes_split (hne : digits ≠ []) (h : ∀ c ∈ digits, isDigit c = true)
    (hlarge : 0 ≤ exponent) (hfits : ¬digits.length ≤ exponent.toNat + 1) :
    Writes negative (positional digits exponent) (decimalOf negative digits exponent) := by
  rw [positional_split hlarge hfits]
  refine .of_point (by simp [hne]) (fun c hc => h c (List.mem_of_mem_take hc))
    (fun c hc => h c (List.mem_of_mem_drop hc)) ?_
  have hexponent : -((digits.drop (exponent.toNat + 1)).length : Int) =
      exponent + 1 - digits.length := by
    rw [List.length_drop]
    omega
  rw [decimalOf, List.take_append_drop, hexponent]

theorem writes_positional (hne : digits ≠ []) (h : ∀ c ∈ digits, isDigit c = true) :
    Writes negative (positional digits exponent) (decimalOf negative digits exponent) := by
  by_cases hsmall : exponent < 0
  · exact writes_shifted h hsmall
  by_cases hfits : digits.length ≤ exponent.toNat + 1
  · exact writes_padded hne h (Int.not_lt.1 hsmall) hfits
  · exact writes_split hne h (Int.not_lt.1 hsmall) hfits

/-! ### With a power of ten -/

/-- The power of ten that ends a scientific layout. -/
def power (width : Nat) (exponent : Int) : List Char :=
  let digits := Nat.toDigits 10 exponent.natAbs
  'e' :: (if exponent < 0 then '-' else '+') :: (List.replicate (width - digits.length) '0' ++ digits)

theorem scientific_singleton (width : Nat) (d : Char) (exponent : Int) :
    scientific width [d] exponent = [d] ++ power width exponent := by
  simp [scientific, power]

theorem scientific_cons_cons (width : Nat) (first second : Char) (rest : List Char) (exponent : Int) :
    scientific width (first :: second :: rest) exponent =
      [first] ++ '.' :: (second :: rest ++ power width exponent) := by
  simp [scientific, power]

theorem endsDigits_power (width : Nat) (exponent : Int) : EndsDigits (power width exponent) := by
  rintro c ⟨⟩
  decide

theorem isPart_of_mem_power {width : Nat} {c : Char} (h : c ∈ power width exponent) :
    isPart c = true := by
  have hsign : isPart (if exponent < 0 then '-' else '+') = true := by
    split <;> rfl
  simp only [power, List.mem_cons, List.mem_append] at h
  rcases h with rfl | rfl | hzero | hdigit
  · rfl
  · exact hsign
  · exact isPart_of_isDigit (isDigit_of_mem_zeros hzero)
  · exact isPart_of_isDigit (isDigit_of_mem_toDigits hdigit)

theorem exponent?_signed (hne : digits ≠ []) (h : ∀ c ∈ digits, isDigit c = true) :
    exponent? ('e' :: (if negative then '-' else '+') :: digits) =
      some (if negative then -(digitsValue digits : Int) else digitsValue digits) := by
  have hall : digits.all isDigit = true := List.all_eq_true.2 h
  cases negative <;> simp [exponent?, splitSign, hne, hall]

theorem exponent?_power (width : Nat) (exponent : Int) :
    exponent? (power width exponent) = some exponent := by
  unfold power
  extract_lets digits
  have hne : List.replicate (width - digits.length) '0' ++ digits ≠ [] := by
    simp [digits, Nat.toDigits_ne_nil]
  have hread : exponent? ('e' :: (if decide (exponent < 0) then '-' else '+') :: _) = _ :=
    exponent?_signed hne (List.forall_mem_append.2
      ⟨fun c => isDigit_of_mem_zeros, fun c => isDigit_of_mem_toDigits⟩)
  rw [digitsValue_zeros_append, digitsValue_toDigits] at hread
  simp only [decide_eq_true_eq] at hread
  rw [hread]
  congr 1
  split <;> omega

theorem writes_scientific (width : Nat) (hne : digits ≠ []) (h : ∀ c ∈ digits, isDigit c = true) :
    Writes negative (scientific width digits exponent) (decimalOf negative digits exponent) := by
  have hparts : ∀ c ∈ power width exponent, isPart c = true := fun _ => isPart_of_mem_power
  have hend := endsDigits_power width exponent
  have hpower := exponent?_power width exponent
  match digits, hne, h with
  | [d], hne, h =>
    rw [scientific_singleton]
    exact .of_whole hne h hparts hend hpower (by simp [decimalOf])
  | first :: second :: rest, _, h =>
    obtain ⟨hfirst, hrest⟩ := List.forall_mem_cons.1 h
    have hexponent : exponent - (second :: rest).length =
        exponent + 1 - (first :: second :: rest).length := by
      simp only [List.length_cons]
      omega
    rw [scientific_cons_cons]
    refine .of_fraction (List.cons_ne_nil first []) (by simpa using hfirst) hrest hparts hend hpower ?_
    rw [decimalOf, hexponent]
    rfl

/-- However digits are laid out, they are read as their decimal. -/
theorem writes_layout (format : NumberFormat) (hne : digits ≠ [])
    (h : ∀ c ∈ digits, isDigit c = true) :
    Writes negative (format.layout digits exponent) (decimalOf negative digits exponent) := by
  unfold layout
  split
  · exact writes_positional hne h
  · exact writes_scientific _ hne h

end

/-! ## Significant digits -/

section

variable {coefficient : Nat} {exponent : Int}

theorem isDigit_of_mem_significantDigits {c : Char}
    (h : c ∈ (significantDigits coefficient exponent).1) : isDigit c = true :=
  isDigit_of_mem_toDigits
    (List.mem_reverse.1 ((List.dropWhile_subset _) (List.mem_reverse.1 h)))

/-- The digits of a coefficient are its significant digits and zeros. -/
theorem exists_zeros_significantDigits (coefficient : Nat) (exponent : Int) :
    ∃ count, Nat.toDigits 10 coefficient =
      (significantDigits coefficient exponent).1 ++ List.replicate count '0' := by
  generalize hdigits : Nat.toDigits 10 coefficient = digits
  have hzeros : digits.reverse.takeWhile (· = '0') =
      List.replicate (digits.reverse.takeWhile (· = '0')).length '0' :=
    List.eq_replicate_of_mem fun c hc => by simpa using List.mem_takeWhile_imp hc
  refine ⟨(digits.reverse.takeWhile (· = '0')).length, ?_⟩
  rw [significantDigits, hdigits]
  calc
    digits = (digits.reverse.takeWhile (· = '0') ++ digits.reverse.dropWhile (· = '0')).reverse := by
      rw [List.takeWhile_append_dropWhile, List.reverse_reverse]
    _ = (digits.reverse.dropWhile (· = '0')).reverse ++
        (digits.reverse.takeWhile (· = '0')).reverse := List.reverse_append
    _ = _ := by rw [hzeros, List.reverse_replicate, List.length_replicate]

/-- The significant digits of a decimal have its value. -/
theorem decimalOf_significantDigits (negative : Bool) (coefficient : Nat) (exponent : Int) :
    decimalOf negative (significantDigits coefficient exponent).1
      (significantDigits coefficient exponent).2 = .ofDecimal negative coefficient exponent := by
  obtain ⟨count, hzeros⟩ := exists_zeros_significantDigits coefficient exponent
  have hcoefficient : digitsValue (significantDigits coefficient exponent).1 * 10 ^ count =
      coefficient := by
    rw [← digitsValue_append_zeros, ← hzeros, digitsValue_toDigits]
  have hexponent : (significantDigits coefficient exponent).2 + 1 -
      (significantDigits coefficient exponent).1.length = exponent + count := by
    have hlength := congrArg List.length hzeros
    rw [List.length_append, List.length_replicate] at hlength
    have hleading : (significantDigits coefficient exponent).2 =
      exponent + (Nat.toDigits 10 coefficient).length - 1 := rfl
    omega
  rw [decimalOf, hexponent, ← Binary64.ofDecimal_shift, hcoefficient]

theorem significantDigits_ne_nil (h : coefficient ≠ 0) (exponent : Int) :
    (significantDigits coefficient exponent).1 ≠ [] := by
  obtain ⟨count, hzeros⟩ := exists_zeros_significantDigits coefficient exponent
  intro hnil
  rw [hnil, List.nil_append] at hzeros
  refine h ?_
  rw [← digitsValue_toDigits coefficient, hzeros]
  exact (digitsValue_append_zeros [] count).trans (Nat.zero_mul _)

end

/-! ## Numbers -/

theorem shortest_ne_zero {rank : Nat} (h : rank ≠ 0) : (Binary64.shortest rank).1 ≠ 0 := by
  intro hzero
  refine h ((Binary64.rankOf_shortest rank).symm.trans (Binary64.rankOf_eq_zero ?_))
  rw [hzero, Nat.zero_mul, Nat.zero_mul, Nat.mul_zero]
  exact Nat.pow_pos (by decide)

theorem magnitude_of_ne_zero (format : NumberFormat) {rank : Nat} (h : rank ≠ 0) :
    format.magnitude rank =
      format.layout (significantDigits (Binary64.shortest rank).1 (Binary64.shortest rank).2).1
        (significantDigits (Binary64.shortest rank).1 (Binary64.shortest rank).2).2 := by
  unfold magnitude
  split
  case isTrue hzero => exact absurd hzero h
  case isFalse =>
    obtain ⟨coefficient, exponent⟩ := Binary64.shortest rank
    rfl

/-- The text of a magnitude is read as the magnitude. -/
theorem writes_magnitude (negative : Bool) (format : NumberFormat) {rank : Nat}
    (h : rank < Binary64.rankCount) :
    Writes negative (format.magnitude rank) (.finite negative ⟨rank, h⟩) := by
  by_cases hzero : rank = 0
  · subst hzero
    exact writes_layout format (List.cons_ne_nil '0' []) (List.forall_mem_singleton.2 rfl)
  · rw [magnitude_of_ne_zero format hzero, ← Binary64.ofDecimal_shortest negative h,
      ← decimalOf_significantDigits]
    exact writes_layout format (significantDigits_ne_nil (shortest_ne_zero hzero) _)
      fun _ => isDigit_of_mem_significantDigits

/-- The text of a number is read as that number. -/
theorem number?_write (x : Binary64) : number? (plain.write x) = some x := by
  cases x with
  | finite negative rank =>
    obtain ⟨⟨c, rest, htext, hc, hrest⟩, hreads⟩ := writes_magnitude negative plain rank.2
    rw [write, htext, number?_signed negative hc hrest, ← htext, hreads]
  | infinite negative => cases negative <;> decide
  | nan => decide

/-- Numbers are written in digits and the few other characters of numerals. -/
theorem isPart_of_mem_write {x : Binary64} {c : Char} (h : c ∈ plain.write x) :
    isPart c = true := by
  cases x with
  | finite negative rank =>
    obtain ⟨⟨d, rest, htext, hd, hrest⟩, -⟩ := writes_magnitude negative plain rank.2
    rw [write, htext] at h
    have hparts : ∀ c ∈ d :: rest, isPart c = true :=
      List.forall_mem_cons.2 ⟨isPart_of_isDigit hd, hrest⟩
    cases negative with
    | false => exact hparts c h
    | true =>
      obtain rfl | hmem := List.mem_cons.1 h
      · rfl
      · exact hparts c hmem
  | infinite negative =>
    have hall : (plain.write (.infinite negative)).all isPart = true := by cases negative <;> decide
    exact List.all_eq_true.1 hall c h
  | nan =>
    have hall : (plain.write .nan).all isPart = true := by decide
    exact List.all_eq_true.1 hall c h

end NumberFormat

/-- Different numbers have different texts. -/
theorem Binary64.text_injective : Function.Injective Binary64.text := by
  intro x y h
  have hwrite : NumberFormat.plain.write x = NumberFormat.plain.write y := String.ofList_injective h
  rw [← Option.some_inj, ← NumberFormat.number?_write, hwrite, NumberFormat.number?_write]

end ExprFront
