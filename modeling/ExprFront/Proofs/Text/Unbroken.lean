import ExprFront.Proofs.Number.ReadBack
import ExprFront.Parse.Error
import ExprFront.Scan.Error

/-!
# Texts on one line

A text is unbroken when none of its characters ends a line. Quoted texts are unbroken, since what
ends a line is not printable and stands escaped; so are the texts of numbers, and with them all
messages and the tokens as they are listed.
-/

namespace ExprFront

/-- The characters that end lines: the line feed, vertical tab, form feed and carriage return, the
separators of files, groups and records, the next line, and the separators of lines and
paragraphs. -/
def lineBreaks : CharClass :=
  [(0x0A, 0x0D), (0x1C, 0x1E), (0x85, 0x85), (0x2028, 0x2029)]

/-- Is the text without a character that ends a line? -/
def Unbroken (text : List Char) : Prop :=
  ∀ c ∈ text, lineBreaks.holds c = false

instance (text : List Char) : Decidable (Unbroken text) :=
  List.decidableBAll (fun c => lineBreaks.holds c = false) text

section

variable {c : Char} {s t : List Char}

theorem holds_lineBreaks_eq_false (h : 0x20 ≤ c.toNat) (h' : c.toNat < 0x7F) :
    lineBreaks.holds c = false := by
  simp only [lineBreaks, CharClass.holds_cons, CharClass.holds_nil, Bool.or_false,
    Bool.or_eq_false_iff, Bool.and_eq_false_iff, decide_eq_false_iff_not]
  omega

/-- What can be shown as it is ends no line. -/
theorem holds_lineBreaks_of_isPrintable (h : isPrintable c = true) :
    lineBreaks.holds c = false := by
  have hranges : (lineBreaks.all fun r => nonPrintables.any fun r' =>
      decide (r'.1 ≤ r.1 ∧ r.2 ≤ r'.2)) = true := by decide +kernel
  simp only [List.all_eq_true, List.any_eq_true, decide_eq_true_eq] at hranges
  cases hbreak : lineBreaks.holds c with
  | false => rfl
  | true =>
    obtain ⟨r, hr, hlow, hhigh⟩ := CharClass.holds_iff.1 hbreak
    obtain ⟨r', hr', hle, hge⟩ := hranges r hr
    have hnot : nonPrintables.holds c = true :=
      CharClass.holds_iff.2 ⟨r', hr', Nat.le_trans hle hlow, Nat.le_trans hhigh hge⟩
    simp [isPrintable, hnot] at h

namespace Unbroken

theorem nil : Unbroken [] :=
  fun _ h => absurd h List.not_mem_nil

theorem cons (hc : lineBreaks.holds c = false) (h : Unbroken s) : Unbroken (c :: s) :=
  List.forall_mem_cons.2 ⟨hc, h⟩

theorem append (hs : Unbroken s) (ht : Unbroken t) : Unbroken (s ++ t) :=
  List.forall_mem_append.2 ⟨hs, ht⟩

theorem flatMap {f : Char → List Char} (h : ∀ c, Unbroken (f c)) : Unbroken (s.flatMap f) := by
  intro d hd
  obtain ⟨c, -, hc⟩ := List.mem_flatMap.1 hd
  exact h c d hc

theorem append_string {a b : String} (ha : Unbroken a.toList) (hb : Unbroken b.toList) :
    Unbroken (a ++ b).toList :=
  String.toList_append ▸ ha.append hb

theorem intercalate {a : String} {texts : List String} (ha : Unbroken a.toList)
    (h : ∀ text ∈ texts, Unbroken text.toList) : Unbroken (a.intercalate texts).toList := by
  induction texts with
  | nil => exact nil
  | cons text rest ih =>
    obtain ⟨htext, hrest⟩ := List.forall_mem_cons.1 h
    cases rest with
    | nil => rwa [String.intercalate_singleton]
    | cons next rest =>
      rw [String.intercalate_cons_cons]
      exact (htext.append_string ha).append_string (ih hrest)

end Unbroken

/-! ## Digits -/

theorem unbroken_toDigits (n : Nat) : Unbroken (Nat.toDigits 10 n) := by
  intro c hc
  have hdigit := Numeral.isDigit_iff.1 (Numeral.isDigit_of_mem_toDigits hc)
  exact holds_lineBreaks_eq_false (by omega) (by omega)

theorem unbroken_nat (n : Nat) : Unbroken (toString n).toList := by
  rw [Nat.toString_eq_repr, Nat.toList_repr]
  exact unbroken_toDigits n

theorem unbroken_int (n : Int) : Unbroken (toString n).toList := by
  rw [Int.toString_eq_repr]
  cases n with
  | ofNat n => exact unbroken_nat n
  | negSucc n => exact Unbroken.append_string (by decide) (unbroken_nat (n + 1))

theorem unbroken_hex (width n : Nat) : Unbroken (hex width n) := by
  induction width generalizing n with
  | zero => exact .nil
  | succ width ih =>
    have hdigits : ∀ d < 16, lineBreaks.holds (Nat.digitChar d) = false := by decide
    exact (ih _).append (.cons (hdigits _ (Nat.mod_lt n (by decide))) .nil)

end

/-! ## Numbers -/

theorem Binary64.unbroken_text (x : Binary64) : Unbroken x.text.toList := by
  rw [Binary64.text, String.toList_ofList]
  intro c hc
  have hrange := Numeral.toNat_of_isPart (NumberFormat.isPart_of_mem_write hc)
  exact holds_lineBreaks_eq_false (by omega) (by omega)

/-! ## Quoted texts -/

namespace Quoted

theorem unbroken_mark (text : List Char) : lineBreaks.holds (mark text) = false := by
  unfold mark
  split <;> decide

theorem unbroken_escapeCode (n : Nat) : Unbroken (escapeCode n) := by
  unfold escapeCode
  split_ifs
  all_goals exact .cons (by decide) (.cons (by decide) (unbroken_hex _ _))

/-- What ends a line does not stand between quotes as it is. -/
theorem unbroken_escape {quote : Char} (hquote : lineBreaks.holds quote = false) (c : Char) :
    Unbroken (escape quote c) := by
  unfold escape
  split
  case isTrue h =>
    obtain rfl | rfl := h
    · exact .cons (by decide) (.cons hquote .nil)
    · decide
  split
  case isTrue => decide
  split
  case isTrue => decide
  split
  case isTrue => decide
  split
  case isTrue h => exact .cons (holds_lineBreaks_of_isPrintable h) .nil
  case isFalse => exact unbroken_escapeCode _

end Quoted

theorem unbroken_quoted (text : String) : Unbroken (quoted text).toList := by
  rw [quoted, String.toList_ofList]
  have hmark := Quoted.unbroken_mark text.toList
  exact .cons hmark ((Unbroken.flatMap (Quoted.unbroken_escape hmark)).append (.cons hmark .nil))

theorem Shown.unbroken_quoted (shown : Shown) : Unbroken shown.quoted.toList := by
  cases shown with
  | text content => exact ExprFront.unbroken_quoted content
  | surrogate s =>
    rw [quoted, String.toList_ofList]
    exact .cons (by decide) ((Quoted.unbroken_escapeCode s.code).append (.cons (by decide) .nil))

/-! ## Messages -/

theorem Payload.unbroken_display (payload : Payload) : Unbroken payload.display.toList := by
  cases payload with
  | absent => decide
  | text value => exact unbroken_quoted value
  | number value => exact value.unbroken_text

theorem TokenKind.unbroken_name (kind : TokenKind) : Unbroken kind.name.toList := by
  cases kind <;> decide

/-- Every token is listed on one line. -/
theorem Token.unbroken_display (t : Token) : Unbroken t.display.toList := by
  have hkind : Unbroken (toString "Token(" ++ toString t.kind.name ++ toString ", ").toList :=
    (Unbroken.append_string (by decide) t.kind.unbroken_name).append_string (by decide)
  have hpayload := hkind.append_string t.payload.unbroken_display
  have hline := (hpayload.append_string (b := ", L") (by decide)).append_string
    (unbroken_int t.position.line)
  have hcolumn := (hline.append_string (b := ":C") (by decide)).append_string
    (unbroken_int t.position.column)
  exact hcolumn.append_string (b := ")") (by decide)

theorem unbroken_place (p : Position) :
    Unbroken
      (toString "[ExprLang L" ++ toString p.line ++ toString ":C" ++ toString p.column).toList := by
  have hline : Unbroken (toString "[ExprLang L" ++ toString p.line ++ toString ":C").toList :=
    (Unbroken.append_string (by decide) (unbroken_int _)).append_string (by decide)
  exact hline.append_string (unbroken_int _)

/-- Every lexical error has its message on one line. -/
theorem LexError.unbroken_message (e : LexError) : Unbroken e.message.toList := by
  obtain ⟨kind, position, shown⟩ := e
  have hkind : Unbroken kind.wording.toList := by cases kind <;> decide
  have hplace := (unbroken_place position).append_string (b := "] Lexer error: ") (by decide)
  refine (hplace.append_string hkind).append_string ?_
  cases shown with
  | none => exact .nil
  | some shown => exact Unbroken.append_string (by decide) shown.unbroken_quoted

theorem unbroken_names (kinds : List TokenKind) :
    Unbroken (", ".intercalate (TokenKind.names kinds)).toList := by
  refine Unbroken.intercalate (by decide) fun name hname => ?_
  obtain ⟨kind, -, rfl⟩ := List.mem_map.1 hname
  exact kind.unbroken_name

/-- Every error of parsing has its message on one line. -/
theorem ParseError.unbroken_message (e : ParseError) : Unbroken e.message.toList := by
  have hplace := (unbroken_place e.position).append_string (b := "] Parse error: ") (by decide)
  refine hplace.append_string ?_
  cases e with
  | unexpectedEnd position expected =>
    exact Unbroken.append_string (by decide) (unbroken_names expected)
  | unexpectedToken t expected =>
    have hkind : Unbroken (toString "Unexpected token " ++ toString t.kind.name).toList :=
      Unbroken.append_string (by decide) t.kind.unbroken_name
    have hspan := (hkind.append_string (b := " (") (by decide)).append_string
      (unbroken_quoted t.span)
    exact (hspan.append_string (b := "), expected one of: ") (by decide)).append_string
      (unbroken_names expected)
  | nestingTooDeep t =>
    have htext : Unbroken "Expression nested too deeply".toList := by decide
    exact htext

end ExprFront
