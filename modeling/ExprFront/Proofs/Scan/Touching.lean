import ExprFront.Proofs.Scan.Lookahead

/-!
# Lexemes that touch

A lexeme ends where no longer one goes on. The first character of the lexeme behind it tells whether
the two merge, and that comes to the classes of the two: signs before an equals sign, words and
numbers.
-/

namespace ExprFront

/-! ## Classes of lexemes -/

/-- Is the kind that of names or of a keyword? -/
def TokenKind.isWord : TokenKind → Bool
  | .identifier | .elseWord | .falseWord | .ifWord | .trueWord => true
  | _ => false

theorem TokenKind.isWord_ofWord (word : List Char) : (ofWord word).isWord = true := by
  have hall : keywords.all (fun (_, kind) => kind.isWord) = true := by decide
  unfold ofWord
  cases hkeyword : ofKeyword? word with
  | none => rfl
  | some kind => simpa using List.all_eq_true.1 hall _ (mem_of_lookup hkeyword)

section

variable {kind kind' : TokenKind} {c d : Char} {text text' rest : List Char}

/-- The first character of a lexeme tells whether it is a number, a word or neither. -/
theorem Lexeme.class_eq (h : Lexeme kind (c :: text)) :
    isDigit c = (kind == .number) ∧ isNameStart c = kind.isWord := by
  have hpunctuation : TokenKind.punctuation.all (fun (_, kind) =>
      !(kind == .number) && !kind.isWord) = true := by decide
  have hsigns : TokenKind.signs.all (fun (_, kinds) =>
      !(kinds.1 == .number) && !kinds.1.isWord && (!(kinds.2 == .number) && !kinds.2.isWord)) =
        true := by decide
  cases h with
  | punctuation hc =>
    obtain ⟨-, hdigit, hname⟩ := TokenKind.ofPunctuation?_spec hc
    have hkind := List.all_eq_true.1 hpunctuation _ (mem_of_lookup hc)
    simp_all
  | sign hc =>
    obtain ⟨-, hdigit, hname⟩ := TokenKind.ofSign?_spec hc
    have hkinds := List.all_eq_true.1 hsigns _ (mem_of_lookup hc)
    simp_all
  | doubled hc =>
    obtain ⟨-, hdigit, hname⟩ := TokenKind.ofSign?_spec hc
    have hkinds := List.all_eq_true.1 hsigns _ (mem_of_lookup hc)
    simp_all
  | digits hc hwhole => exact ⟨hc, isNameStart_of_isDigit hc⟩
  | fraction hc hwhole hd hfraction => exact ⟨hc, isNameStart_of_isDigit hc⟩
  | word hc hrest =>
    have hword := TokenKind.isWord_ofWord (c :: text)
    have hdigit : isDigit c = false := by
      rw [← Bool.not_eq_true]
      intro hdigit
      rw [isNameStart_of_isDigit hdigit] at hc
      cases hc
    have hnumber : TokenKind.ofWord (c :: text) ≠ .number := by
      intro hnumber
      rw [hnumber] at hword
      cases hword
    exact ⟨hdigit.trans (beq_eq_false_iff_ne.2 hnumber).symm, hc.trans hword.symm⟩

/-! ## Lexemes that go on -/

/-- Does a lexeme with this first character and this rest go on with a character? -/
def goesOn (c : Char) (text : List Char) (d : Char) : Bool :=
  (TokenKind.ofSign? c).isSome && text.isEmpty && d == '=' ||
    isNameStart c && Scanner.isNamePart d || isDigit c && isDigit d

/-- A number goes on with digits only, before the point of a fraction and behind it. -/
theorem Lexeme.isDigit_of_concat (h : Lexeme kind (c :: (text ++ [d]))) (hc : isDigit c = true) :
    isDigit d = true := by
  obtain ⟨-, hdigits | ⟨whole, e, fraction, htext, -, he, hfraction⟩⟩ := h.of_digit hc
  · exact hdigits d (by simp)
  · have hlast : (e :: fraction).getLast (List.cons_ne_nil e fraction) = d := by
      have hend := congrArg List.getLast? htext
      rw [List.getLast?_append, List.getLast?_append, List.getLast?_cons_cons,
        List.getLast?_eq_some_getLast (List.cons_ne_nil e fraction)] at hend
      simpa using hend.symm
    have hmem : d ∈ e :: fraction := hlast ▸ List.getLast_mem _
    rcases List.mem_cons.1 hmem with rfl | hmem
    · exact he
    · exact hfraction d hmem

theorem Lexeme.exists_concat_iff (h : Lexeme kind (c :: text)) (d : Char) :
    (∃ kind', Lexeme kind' (c :: (text ++ [d]))) ↔ goesOn c text d = true := by
  simp only [goesOn, Bool.or_eq_true, Bool.and_eq_true, List.isEmpty_iff, beq_iff_eq,
    Option.isSome_iff_exists]
  constructor
  · rintro ⟨kind', h'⟩
    rcases h.begins with hc | hc | hc | hc
    · obtain ⟨kind'', hc⟩ := Option.ne_none_iff_exists'.1 hc
      simpa using (h'.of_punctuation hc).2
    · obtain ⟨kinds, hc⟩ := Option.ne_none_iff_exists'.1 hc
      obtain ⟨-, hnil⟩ | ⟨-, hequal⟩ := h'.of_sign hc
      · simp at hnil
      · obtain ⟨rfl, hd⟩ := List.append_inj' (show text ++ [d] = [] ++ ['='] from hequal) rfl
        exact .inl (.inl ⟨⟨⟨kinds, hc⟩, rfl⟩, by simpa using hd⟩)
    · exact .inr ⟨hc, h'.isDigit_of_concat hc⟩
    · exact .inl (.inr ⟨hc, (h'.of_nameStart hc).2 d (by simp)⟩)
  · rintro ((⟨⟨⟨kinds, hc⟩, rfl⟩, rfl⟩ | ⟨hc, hd⟩) | ⟨hc, hd⟩)
    · exact ⟨_, .doubled hc⟩
    · obtain ⟨-, hrest⟩ := h.of_nameStart hc
      exact ⟨_, .word hc (List.forall_mem_append.2 ⟨hrest, List.forall_mem_singleton.2 hd⟩)⟩
    · obtain ⟨-, hdigits | ⟨whole, e, fraction, rfl, hwhole, he, hfraction⟩⟩ := h.of_digit hc
      · exact ⟨_, .digits hc (List.forall_mem_append.2 ⟨hdigits, List.forall_mem_singleton.2 hd⟩)⟩
      · rw [List.append_assoc, List.cons_append, List.cons_append]
        exact ⟨_, .fraction hc hwhole he
          (List.forall_mem_append.2 ⟨hfraction, List.forall_mem_singleton.2 hd⟩)⟩

end

/-! ## Lexemes that merge -/

/-- Two lexemes that are scanned to something else when nothing stands between them: a sign before an
equals sign, a word before a word or a number, and two numbers. -/
inductive Merge : List Char → List Char → Prop where
  | sign {c : Char} {kinds : TokenKind × TokenKind} {rest : List Char}
      (hc : TokenKind.ofSign? c = some kinds) : Merge [c] ('=' :: rest)
  | word {kind kind' : TokenKind} {text text' : List Char} (h : Lexeme kind text)
      (h' : Lexeme kind' text') (hword : kind.isWord = true)
      (hnext : kind'.isWord = true ∨ kind' = .number) : Merge text text'
  | number {text text' : List Char} (h : Lexeme .number text) (h' : Lexeme .number text') :
      Merge text text'

section

variable {kind kind' : TokenKind} {c d : Char} {text text' rest : List Char}

/-- Lexemes merge if the first goes on with the first character of the second. -/
theorem merge_iff (h : Lexeme kind (c :: text)) (h' : Lexeme kind' (d :: text')) :
    Merge (c :: text) (d :: text') ↔ goesOn c text d = true := by
  simp only [goesOn, Bool.or_eq_true, Bool.and_eq_true, List.isEmpty_iff, beq_iff_eq,
    Option.isSome_iff_exists, Scanner.isNamePart]
  constructor
  · rintro (⟨hc⟩ | ⟨hlexeme, hlexeme', hword, hnext⟩ | ⟨hlexeme, hlexeme'⟩)
    · exact .inl (.inl ⟨⟨⟨_, hc⟩, rfl⟩, rfl⟩)
    · refine .inl (.inr ⟨hlexeme.class_eq.2.trans hword, ?_⟩)
      rcases hnext with hnext | rfl
      · exact .inl (hlexeme'.class_eq.2.trans hnext)
      · exact .inr hlexeme'.class_eq.1
    · exact .inr ⟨hlexeme.class_eq.1, hlexeme'.class_eq.1⟩
  · obtain ⟨hdigit, hname⟩ := h.class_eq
    obtain ⟨hdigit', hname'⟩ := h'.class_eq
    rintro ((⟨⟨⟨kinds, hc⟩, rfl⟩, rfl⟩ | ⟨hc, hd⟩) | ⟨hc, hd⟩)
    · exact .sign hc
    · refine .word h h' (hname.symm.trans hc) (hd.imp hname'.symm.trans fun hd => ?_)
      exact beq_iff_eq.1 (hdigit'.symm.trans hd)
    · obtain rfl : kind = .number := beq_iff_eq.1 (hdigit.symm.trans hc)
      obtain rfl : kind' = .number := beq_iff_eq.1 (hdigit'.symm.trans hd)
      exact .number h h'

/-- But for a point, the next character alone decides whether a lexeme is the longest. -/
theorem isLongest_cons_iff (h : Lexeme kind (c :: text)) (hd : d ≠ '.') :
    IsLongest kind (c :: text) (c :: text ++ d :: rest) ↔ goesOn c text d = false := by
  rw [← Bool.not_eq_true, ← h.exists_concat_iff, isLongest_iff]
  constructor
  · rintro ⟨-, hnone⟩ ⟨kind', hlexeme⟩
    exact hnone [d] (List.cons_ne_nil d []) ⟨rest, rfl⟩ kind.one_le_lookahead kind' hlexeme
  · refine fun hnone => ⟨h, fun next hne hnext _ kind' hlexeme => ?_⟩
    obtain ⟨e, next, rfl⟩ := List.exists_cons_of_ne_nil hne
    obtain ⟨rfl, -⟩ := List.cons_prefix_cons.1 hnext
    have hfront : c :: (text ++ [e]) <+: c :: text ++ e :: next := ⟨next, by simp⟩
    obtain hlexeme' | ⟨whole, hwhole, -⟩ := hlexeme.of_prefix hfront (List.cons_ne_nil _ _)
    · exact hnone hlexeme'
    · obtain ⟨-, hpoint⟩ := List.append_inj' (show c :: text ++ [e] = whole ++ ['.'] from hwhole) rfl
      exact hd (by simpa using hpoint)

/-- No lexeme begins with a point. -/
theorem Lexeme.ne_point (h : Lexeme kind (c :: text)) : c ≠ '.' := by
  rintro rfl
  have hnone : TokenKind.ofPunctuation? '.' = none ∧ TokenKind.ofSign? '.' = none ∧
      isDigit '.' = false ∧ isNameStart '.' = false := by decide +kernel
  simpa [hnone] using h.begins

end

end ExprFront
