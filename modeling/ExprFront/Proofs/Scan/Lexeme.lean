import ExprFront.Proofs.Number.Decimal
import ExprFront.Scan.Scanner

/-!
# Lexemes

The texts that make up tokens, by their forms alone, and the longest of them that a text begins
with. The forms do not overlap: the first character of a lexeme tells which one it is, and so the
text of a lexeme its kind.
-/

namespace ExprFront

/-- The kind of a word: that of a keyword if it is one, and else that of names. -/
def TokenKind.ofWord (word : List Char) : TokenKind :=
  (ofKeyword? word).getD .identifier

/-- The texts that are lexemes, each with its kind. -/
inductive Lexeme : TokenKind → List Char → Prop where
  | punctuation {c : Char} {kind : TokenKind} (hc : TokenKind.ofPunctuation? c = some kind) :
      Lexeme kind [c]
  | sign {c : Char} {alone doubled : TokenKind}
      (hc : TokenKind.ofSign? c = some (alone, doubled)) : Lexeme alone [c]
  | doubled {c : Char} {alone doubled : TokenKind}
      (hc : TokenKind.ofSign? c = some (alone, doubled)) : Lexeme doubled [c, '=']
  | digits {c : Char} {whole : List Char} (hc : isDigit c = true)
      (hwhole : ∀ d ∈ whole, isDigit d = true) : Lexeme .number (c :: whole)
  | fraction {c d : Char} {whole fraction : List Char} (hc : isDigit c = true)
      (hwhole : ∀ d ∈ whole, isDigit d = true) (hd : isDigit d = true)
      (hfraction : ∀ d ∈ fraction, isDigit d = true) :
      Lexeme .number (c :: (whole ++ '.' :: d :: fraction))
  | word {c : Char} {rest : List Char} (hc : isNameStart c = true)
      (hrest : ∀ d ∈ rest, Scanner.isNamePart d = true) :
      Lexeme (TokenKind.ofWord (c :: rest)) (c :: rest)

/-- The text is a lexeme of the kind that the text ahead begins with, and none is longer. -/
structure IsLongest {α : Type} [TextUnit α] (kind : TokenKind) (text ahead : List α) : Prop where
  lexeme : Lexeme kind (faces text)
  begins : text <+: ahead
  longest : ∀ kind' (text' : List α), Lexeme kind' (faces text') → text' <+: ahead →
    text'.length ≤ text.length

/-! ## First characters -/

section

variable {c : Char} {kind kind' alone doubled : TokenKind} {rest text ahead : List Char}

theorem letters_above (r : Nat × Nat) (h : r ∈ letters) : 0x41 ≤ r.1 := by
  have hall : letters.all (fun r => decide (0x41 ≤ r.1)) = true := by decide +kernel
  exact of_decide_eq_true (List.all_eq_true.1 hall r h)

/-- Nothing before the letters of ASCII begins a name. -/
theorem le_of_isNameStart (h : isNameStart c = true) : 0x41 ≤ c.toNat := by
  simp only [isNameStart, Bool.or_eq_true, CharClass.holds_iff, beq_iff_eq] at h
  rcases h with ⟨r, hr, hle, -⟩ | rfl
  · exact Nat.le_trans (letters_above r hr) hle
  · decide

theorem isNameStart_of_isDigit (h : isDigit c = true) : isNameStart c = false := by
  rw [← Bool.not_eq_true]
  intro hname
  have hle := le_of_isNameStart hname
  have hdigit := Numeral.isDigit_iff.1 h
  omega

theorem mem_of_lookup {α β : Type} [BEq α] [LawfulBEq α] {table : List (α × β)} {k : α} {b : β}
    (h : table.lookup k = some b) : (k, b) ∈ table := by
  obtain ⟨before, behind, rfl, -⟩ := List.lookup_eq_some_iff.1 h
  simp

/-- A punctuation character begins nothing else. -/
theorem TokenKind.ofPunctuation?_spec (h : ofPunctuation? c = some kind) :
    ofSign? c = none ∧ isDigit c = false ∧ isNameStart c = false := by
  have hall : punctuation.all (fun (c, _) =>
      (ofSign? c).isNone && !isDigit c && !isNameStart c) = true := by decide +kernel
  simpa [Option.isNone_iff_eq_none, and_assoc] using List.all_eq_true.1 hall _ (mem_of_lookup h)

/-- A sign begins nothing else. -/
theorem TokenKind.ofSign?_spec (h : ofSign? c = some (alone, doubled)) :
    ofPunctuation? c = none ∧ isDigit c = false ∧ isNameStart c = false := by
  have hall : signs.all (fun (c, _) =>
      (ofPunctuation? c).isNone && !isDigit c && !isNameStart c) = true := by decide +kernel
  simpa [Option.isNone_iff_eq_none, and_assoc] using List.all_eq_true.1 hall _ (mem_of_lookup h)

/-- Digits and letters are neither punctuation nor signs. -/
theorem TokenKind.ofFixed?_eq_none (h : isDigit c = true ∨ isNameStart c = true) :
    ofPunctuation? c = none ∧ ofSign? c = none := by
  constructor
  · refine Option.eq_none_iff_forall_ne_some.2 fun kind hkind => ?_
    obtain ⟨-, hdigit, hname⟩ := ofPunctuation?_spec hkind
    simp [hdigit, hname] at h
  · refine Option.eq_none_iff_forall_ne_some.2 fun p hp => ?_
    obtain ⟨-, hdigit, hname⟩ := ofSign?_spec hp
    simp [hdigit, hname] at h

/-! ## The lexemes that begin with a character -/

theorem Lexeme.of_punctuation (h : Lexeme kind' (c :: text))
    (hc : TokenKind.ofPunctuation? c = some kind) : kind' = kind ∧ text = [] := by
  obtain ⟨hsign, hdigit, hname⟩ := TokenKind.ofPunctuation?_spec hc
  cases h <;> simp_all

theorem Lexeme.of_sign (h : Lexeme kind (c :: text))
    (hc : TokenKind.ofSign? c = some (alone, doubled)) :
    kind = alone ∧ text = [] ∨ kind = doubled ∧ text = ['='] := by
  obtain ⟨hpunctuation, hdigit, hname⟩ := TokenKind.ofSign?_spec hc
  cases h <;> simp_all

theorem Lexeme.of_digit (h : Lexeme kind (c :: text)) (hc : isDigit c = true) :
    kind = .number ∧ ((∀ d ∈ text, isDigit d = true) ∨ ∃ whole d fraction,
      text = whole ++ '.' :: d :: fraction ∧ (∀ d ∈ whole, isDigit d = true) ∧
      isDigit d = true ∧ ∀ d ∈ fraction, isDigit d = true) := by
  obtain ⟨hpunctuation, hsign⟩ := TokenKind.ofFixed?_eq_none (.inl hc)
  have hname := isNameStart_of_isDigit hc
  cases h with
  | digits _ hwhole => exact ⟨rfl, .inl hwhole⟩
  | fraction _ hwhole hd hfraction => exact ⟨rfl, .inr ⟨_, _, _, rfl, hwhole, hd, hfraction⟩⟩
  | punctuation hc' => simp_all
  | sign hc' => simp_all
  | doubled hc' => simp_all
  | word hc' _ => simp_all

theorem Lexeme.of_nameStart (h : Lexeme kind (c :: text)) (hc : isNameStart c = true) :
    kind = .ofWord (c :: text) ∧ ∀ d ∈ text, Scanner.isNamePart d = true := by
  obtain ⟨hpunctuation, hsign⟩ := TokenKind.ofFixed?_eq_none (.inr hc)
  cases h with
  | word _ hrest => exact ⟨rfl, hrest⟩
  | digits hc' _ => simp_all [isNameStart_of_isDigit hc']
  | fraction hc' _ _ _ => simp_all [isNameStart_of_isDigit hc']
  | punctuation hc' => simp_all
  | sign hc' => simp_all
  | doubled hc' => simp_all

/-- The characters of a lexeme are signs, digits, letters and points, but for the punctuation that is
a lexeme by itself. -/
theorem Lexeme.mem_classes (h : Lexeme kind text) (hmem : c ∈ text) :
    (TokenKind.ofPunctuation? c = some kind ∧ text = [c]) ∨ (∃ p, TokenKind.ofSign? c = some p) ∨
      c = '.' ∨ Scanner.isNamePart c = true := by
  have hpart : ∀ d, isDigit d = true → Scanner.isNamePart d = true :=
    fun d hd => Bool.or_eq_true_iff.2 (.inr hd)
  cases h with
  | punctuation hc =>
    obtain rfl := List.mem_singleton.1 hmem
    exact .inl ⟨hc, rfl⟩
  | sign hc =>
    obtain rfl := List.mem_singleton.1 hmem
    exact .inr (.inl ⟨_, hc⟩)
  | doubled hc =>
    simp only [List.mem_cons, List.not_mem_nil, or_false] at hmem
    obtain rfl | rfl := hmem
    · exact .inr (.inl ⟨_, hc⟩)
    · exact .inr (.inl ⟨_, rfl⟩)
  | digits hc hwhole =>
    obtain rfl | hmem := List.mem_cons.1 hmem
    · exact .inr (.inr (.inr (hpart c hc)))
    · exact .inr (.inr (.inr (hpart c (hwhole c hmem))))
  | fraction hc hwhole hd hfraction =>
    simp only [List.mem_cons, List.mem_append] at hmem
    obtain rfl | hmem | rfl | rfl | hmem := hmem
    · exact .inr (.inr (.inr (hpart c hc)))
    · exact .inr (.inr (.inr (hpart c (hwhole c hmem))))
    · exact .inr (.inr (.inl rfl))
    · exact .inr (.inr (.inr (hpart c hd)))
    · exact .inr (.inr (.inr (hpart c (hfraction c hmem))))
  | word hc hrest =>
    obtain rfl | hmem := List.mem_cons.1 hmem
    · exact .inr (.inr (.inr (Bool.or_eq_true_iff.2 (.inl hc))))
    · exact .inr (.inr (.inr (hrest c hmem)))

/-- A lexeme has no surrogates in it. -/
theorem Lexeme.eq_map_char {text : List CodePoint} (h : Lexeme kind (faces text)) :
    text = (faces text).map .char := by
  have hchar : ∀ u ∈ text, CodePoint.char (face u) = u := by
    intro u hu
    cases u with
    | char c => rfl
    | surrogate s =>
      -- what a surrogate is read as is of no class
      have hmem : '\uFFFF' ∈ faces text := List.mem_map_of_mem hu
      obtain ⟨hpunctuation, -⟩ | ⟨p, hsign⟩ | hpoint | hpart := h.mem_classes hmem
      · cases hpunctuation
      · cases hsign
      · cases hpoint
      · exact absurd hpart (by decide +kernel)
  rw [TextUnit.faces_eq_map, List.map_map]
  exact ((List.map_congr_left hchar).trans (List.map_id text)).symm

theorem Lexeme.exists_cons (h : Lexeme kind text) : ∃ c rest, text = c :: rest := by
  cases h <;> exact ⟨_, _, rfl⟩

theorem Lexeme.exists_units {α : Type} [TextUnit α] {text : List α} (h : Lexeme kind (faces text)) :
    ∃ u units, text = u :: units := by
  obtain ⟨c, rest, hcons⟩ := h.exists_cons
  obtain ⟨u, units, htext, -⟩ := faces_eq_cons_iff.1 hcons
  exact ⟨u, units, htext⟩

/-- Every first character of a lexeme is of a class. -/
theorem Lexeme.begins (h : Lexeme kind (c :: text)) :
    TokenKind.ofPunctuation? c ≠ none ∨ TokenKind.ofSign? c ≠ none ∨ isDigit c = true ∨
      isNameStart c = true := by
  cases h <;> simp_all

/-- The text of a lexeme tells its kind. -/
theorem Lexeme.kind_eq (h : Lexeme kind text) (h' : Lexeme kind' text) : kind = kind' := by
  cases h with
  | punctuation hc => exact (h'.of_punctuation hc).1.symm
  | sign hc =>
    obtain ⟨hkind, -⟩ | ⟨-, htext⟩ := h'.of_sign hc
    · exact hkind.symm
    · cases htext
  | doubled hc =>
    obtain ⟨-, htext⟩ | ⟨hkind, -⟩ := h'.of_sign hc
    · cases htext
    · exact hkind.symm
  | digits hc hwhole => exact (h'.of_digit hc).1.symm
  | fraction hc hwhole hd hfraction => exact (h'.of_digit hc).1.symm
  | word hc hrest => exact (h'.of_nameStart hc).1.symm

/-! ## Longest lexemes -/

/-- The longest lexeme is only one. -/
theorem IsLongest.unique {α : Type} [TextUnit α] {text text' ahead : List α}
    (h : IsLongest kind text ahead) (h' : IsLongest kind' text' ahead) :
    kind = kind' ∧ text = text' := by
  have hle := h.longest kind' text' h'.lexeme h'.begins
  have hle' := h'.longest kind text h.lexeme h.begins
  have hfront := List.prefix_of_prefix_length_le h.begins h'.begins hle'
  obtain rfl := hfront.eq_of_length (Nat.le_antisymm hle' hle)
  exact ⟨h.lexeme.kind_eq h'.lexeme, rfl⟩

/-- What is longest among the faces of a text is longest in the text. -/
theorem IsLongest.of_faces {α : Type} [TextUnit α] {text ahead : List α} (hbegins : text <+: ahead)
    (h : IsLongest kind (faces text) (faces ahead)) : IsLongest kind text ahead where
  lexeme := h.lexeme
  begins := hbegins
  longest kind' text' hlexeme hfront := by
    have hfaces : faces text' <+: faces ahead := by
      obtain ⟨rest, rfl⟩ := hfront
      rw [faces_append]
      exact List.prefix_append _ _
    simpa using h.longest kind' (faces text') hlexeme hfaces

/-- What begins with a character is compared with the lexemes that begin with it only. -/
theorem IsLongest.of_cons (hlexeme : Lexeme kind (c :: text)) (hbegins : text <+: rest)
    (h : ∀ kind' text', Lexeme kind' (c :: text') → text' <+: rest →
      text'.length ≤ text.length) : IsLongest kind (c :: text) (c :: rest) := by
  -- any other lexeme ahead begins with the same character
  refine ⟨hlexeme, List.cons_prefix_cons.2 ⟨rfl, hbegins⟩, fun kind' text' hlexeme' hfront => ?_⟩
  obtain ⟨d, text'', rfl⟩ := hlexeme'.exists_cons
  obtain ⟨rfl, hrest⟩ := List.cons_prefix_cons.1 hfront
  exact Nat.succ_le_succ (h kind' text'' hlexeme' hrest)

/-- A row of characters of a class is no longer than the row of all of them. -/
theorem length_le_takeWhile {p : Char → Bool} (hfront : text <+: rest)
    (h : ∀ d ∈ text, p d = true) : text.length ≤ (rest.takeWhile p).length := by
  obtain ⟨behind, rfl⟩ := hfront
  rw [List.takeWhile_append_of_pos h, List.length_append]
  exact Nat.le_add_right _ _

theorem mem_takeWhile {p : Char → Bool} (rest : List Char) :
    ∀ d ∈ rest.takeWhile p, p d = true :=
  fun _ => List.mem_takeWhile_imp

theorem IsLongest.of_punctuation (hc : TokenKind.ofPunctuation? c = some kind) :
    IsLongest kind [c] (c :: rest) := by
  refine IsLongest.of_cons (.punctuation hc) (List.nil_prefix) fun kind' text' h _ => ?_
  simp [(h.of_punctuation hc).2]

theorem IsLongest.of_sign (hc : TokenKind.ofSign? c = some (alone, doubled))
    (hrest : rest.head? ≠ some '=') : IsLongest alone [c] (c :: rest) := by
  refine IsLongest.of_cons (.sign hc) (List.nil_prefix) fun kind' text' h hfront => ?_
  obtain ⟨-, rfl⟩ | ⟨-, rfl⟩ := h.of_sign hc
  · exact Nat.le_refl 0
  · obtain ⟨behind, rfl⟩ := hfront
    exact absurd rfl hrest

theorem IsLongest.of_doubled (hc : TokenKind.ofSign? c = some (alone, doubled)) :
    IsLongest doubled [c, '='] (c :: '=' :: rest) := by
  refine IsLongest.of_cons (.doubled hc) (by simp) fun kind' text' h _ => ?_
  obtain ⟨-, rfl⟩ | ⟨-, rfl⟩ := h.of_sign hc
  · exact Nat.zero_le 1
  · exact Nat.le_refl 1

/-- Digits end a number where no point with a digit behind it follows. -/
theorem IsLongest.of_digits (hc : isDigit c = true)
    (hstop : ∀ d more, rest.dropWhile isDigit = '.' :: d :: more → isDigit d = false) :
    IsLongest .number (c :: rest.takeWhile isDigit) (c :: rest) := by
  refine IsLongest.of_cons (.digits hc (mem_takeWhile rest)) (List.takeWhile_prefix _) ?_
  intro kind' text' h hfront
  obtain ⟨-, hdigits | ⟨whole, d, fraction, rfl, hwhole, hd, -⟩⟩ := h.of_digit hc
  · exact length_le_takeWhile hfront hdigits
  -- a fraction would have begun right behind the digits
  · obtain ⟨behind, rfl⟩ := hfront
    rw [List.append_assoc, List.cons_append, Numeral.dropWhile_isDigit hwhole] at hstop
    simp [hstop d _ rfl] at hd

/-- A point with a digit behind it goes on with a number for as many digits as there are. -/
theorem IsLongest.of_fraction {d : Char} {more : List Char} (hc : isDigit c = true)
    (hrest : rest.dropWhile isDigit = '.' :: d :: more) (hd : isDigit d = true) :
    IsLongest .number (c :: (rest.takeWhile isDigit ++ '.' :: d :: more.takeWhile isDigit))
      (c :: rest) := by
  have hsplit : rest = rest.takeWhile isDigit ++ '.' :: d :: more := by
    rw [← hrest, List.takeWhile_append_dropWhile]
  have hbegins : rest.takeWhile isDigit ++ '.' :: d :: more.takeWhile isDigit <+:
      rest.takeWhile isDigit ++ '.' :: d :: more := by
    simp [List.prefix_append_right_inj, List.takeWhile_prefix]
  rw [← hsplit] at hbegins
  refine IsLongest.of_cons (.fraction hc (mem_takeWhile rest) hd (mem_takeWhile more)) hbegins ?_
  intro kind' text' h hfront
  obtain ⟨-, hdigits | ⟨whole, d', fraction, rfl, hwhole, -, hfraction⟩⟩ := h.of_digit hc
  · rw [List.length_append]
    exact Nat.le_add_right_of_le (length_le_takeWhile hfront hdigits)
  -- both texts have their point behind the same digits
  · obtain ⟨behind, rfl⟩ := hfront
    rw [List.append_assoc, List.cons_append] at hrest ⊢
    rw [Numeral.dropWhile_isDigit hwhole] at hrest
    rw [Numeral.takeWhile_isDigit hwhole]
    obtain ⟨rfl, rfl⟩ : d' = d ∧ fraction ++ behind = more := by simpa using hrest
    have hle := length_le_takeWhile (List.prefix_append fraction behind) hfraction
    simp only [List.length_append, List.length_cons]
    omega

theorem IsLongest.of_word (hc : isNameStart c = true) :
    IsLongest (.ofWord (c :: rest.takeWhile Scanner.isNamePart))
      (c :: rest.takeWhile Scanner.isNamePart) (c :: rest) := by
  refine IsLongest.of_cons (.word hc (mem_takeWhile rest)) (List.takeWhile_prefix _) ?_
  intro kind' text' h hfront
  exact length_le_takeWhile hfront (h.of_nameStart hc).2

end

end ExprFront
