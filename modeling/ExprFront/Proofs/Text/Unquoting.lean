import Mathlib.Data.List.Forall2
import ExprFront.Proofs.Number.ReadBack
import ExprFront.Token.Basic

/-!
# Quoted texts can be read back

Between quotes each character has a codeword, and no codeword can be taken for another whatever
follows it: a backslash begins exactly those of more than one character, and the character behind it
tells how many digits there are. No codeword begins with the quote, so the closing quote ends the
row. Different texts are therefore quoted differently, and so are different payloads displayed.
-/

namespace ExprFront

/-! ## Rows of codewords -/

/-- Rows of codewords can be told apart up to a mark behind them: if no codeword can be taken for
another, and none begins with the mark. -/
theorem forall₂_of_codewords {α β : Type} {R : α → α → Prop} {word : α → List β} {mark : β}
    {as bs : List α} {s t : List β}
    (hword : ∀ a ∈ as, ∀ b s t, word a ++ s = word b ++ t → R a b ∧ s = t)
    (hmark : ∀ a s t, word a ++ s ≠ mark :: t)
    (h : as.flatMap word ++ mark :: s = bs.flatMap word ++ mark :: t) :
    List.Forall₂ R as bs ∧ s = t := by
  induction as generalizing bs with
  | nil =>
    cases bs with
    | nil => exact ⟨.nil, (List.cons.inj h).2⟩
    | cons b bs =>
      rw [List.flatMap_cons, List.append_assoc] at h
      exact absurd h.symm (hmark _ _ _)
  | cons a as ih =>
    cases bs with
    | nil =>
      rw [List.flatMap_cons, List.append_assoc] at h
      exact absurd h (hmark _ _ _)
    | cons b bs =>
      rw [List.flatMap_cons, List.flatMap_cons, List.append_assoc, List.append_assoc] at h
      obtain ⟨hab, hrest⟩ := hword a (.head _) b _ _ h
      obtain ⟨htail, hst⟩ := ih (fun x hx => hword x (.tail _ hx)) hrest
      exact ⟨.cons hab htail, hst⟩

/-! ## Hexadecimal digits -/

theorem digitChar_inj {m n : Nat} (hm : m < 16) (hn : n < 16)
    (h : Nat.digitChar m = Nat.digitChar n) : m = n := by
  have hall : ∀ m < 16, ∀ n < 16, Nat.digitChar m = Nat.digitChar n → m = n := by decide
  exact hall m hm n hn h

theorem hex_inj {width m n : Nat} (hm : m < 16 ^ width) (hn : n < 16 ^ width)
    (h : hex width m = hex width n) : m = n := by
  induction width generalizing m n with
  | zero => omega
  | succ width ih =>
    rw [Nat.pow_succ] at hm hn
    obtain ⟨hhigh, hlow⟩ := List.append_inj' h rfl
    have hdiv := ih (by omega) (by omega) hhigh
    have hmod := digitChar_inj (Nat.mod_lt m (by decide)) (Nat.mod_lt n (by decide))
      (List.cons.inj hlow).1
    omega

/-! ## Codewords of characters -/

namespace Quoted

/-- How many hexadecimal digits there are behind a backslash and this character. -/
def digitCount : Char → Nat
  | 'x' => 2
  | 'u' => 4
  | 'U' => 8
  | _ => 0

/-- The character that a backslash and this character stand for, where there are no digits. -/
def meaning : Char → Char
  | 'n' => '\n'
  | 'r' => '\r'
  | 't' => '\t'
  | c => c

section

variable {quote c d : Char} {s t : List Char}

/-- What stands for a character: the character itself, which is neither a quote nor a backslash, or
a backslash with a character that tells the rest. -/
inductive Codeword (quote c : Char) : List Char → Prop where
  | plain (hquote : c ≠ quote) (hbackslash : c ≠ '\\') : Codeword quote c [c]
  | short {k : Char} (hcount : digitCount k = 0) (hmeaning : meaning k = c) :
      Codeword quote c ['\\', k]
  | code {k : Char} (hcount : digitCount k ≠ 0) (hfits : c.toNat < 16 ^ digitCount k) :
      Codeword quote c ('\\' :: k :: hex (digitCount k) c.toNat)

theorem codeword_escape (hquote : quote = '\'' ∨ quote = '"') (c : Char) :
    Codeword quote c (escape quote c) := by
  have hlarge : c.toNat < 16 ^ 8 := c.val.toNat_lt
  unfold escape
  split
  case isTrue h => rcases h with rfl | rfl <;> rcases hquote with rfl | rfl <;> exact .short rfl rfl
  case isFalse h =>
  split
  case isTrue hc => exact .short rfl hc.symm
  split
  case isTrue hc => exact .short rfl hc.symm
  split
  case isTrue hc => exact .short rfl hc.symm
  split
  case isTrue => exact .plain (fun hc => h (.inl hc)) (fun hc => h (.inr hc))
  unfold escapeCode
  split
  case isTrue hsmall => exact .code (k := 'x') (by decide) hsmall
  split
  case isTrue hmiddle => exact .code (k := 'u') (by decide) hmiddle
  case isFalse => exact .code (k := 'U') (by decide) hlarge

/-- A codeword and what follows it stand for one character only. -/
theorem Codeword.unique {w w' : List Char} (hc : Codeword quote c w) (hd : Codeword quote d w')
    (h : w ++ s = w' ++ t) : c = d ∧ s = t := by
  cases hc <;> cases hd <;> simp only [List.cons_append, List.nil_append, List.cons.injEq] at h
  case plain.plain => exact h
  case plain.short hne _ _ _ => exact absurd h.1 hne
  case plain.code hne _ _ _ => exact absurd h.1 hne
  case short.plain hne => exact absurd h.1.symm hne
  case code.plain hne => exact absurd h.1.symm hne
  case short.short hmeaning _ _ hmeaning' =>
    obtain ⟨-, rfl, hst⟩ := h
    exact ⟨hmeaning.symm.trans hmeaning', hst⟩
  case short.code hcount _ _ hcount' _ =>
    obtain ⟨-, rfl, -⟩ := h
    exact absurd hcount hcount'
  case code.short hcount _ _ hcount' _ =>
    obtain ⟨-, rfl, -⟩ := h
    exact absurd hcount' hcount
  case code.code hfits _ _ hfits' =>
    obtain ⟨-, rfl, hrest⟩ := h
    obtain ⟨hhex, hst⟩ := List.append_inj hrest (by rw [length_hex, length_hex])
    exact ⟨Char.toNat_inj.1 (hex_inj hfits hfits' hhex), hst⟩

theorem Codeword.append_ne {w : List Char} (h : Codeword quote c w)
    (hquote : quote = '\'' ∨ quote = '"') : w ++ s ≠ quote :: t := by
  have hbackslash : '\\' ≠ quote := by rcases hquote with rfl | rfl <;> decide
  cases h with
  | plain hne _ => exact fun heq => hne (List.cons.inj heq).1
  | short => exact fun heq => hbackslash (List.cons.inj heq).1
  | code => exact fun heq => hbackslash (List.cons.inj heq).1

theorem mark_eq (text : List Char) : mark text = '\'' ∨ mark text = '"' := by
  unfold mark
  split
  · exact .inr rfl
  · exact .inl rfl

/-- Different texts are quoted differently. -/
theorem encode_injective : Function.Injective encode := by
  intro text text' h
  obtain ⟨hmark, hbody⟩ := List.cons.inj h
  rw [← hmark] at hbody
  have hquote := mark_eq text
  have hrows := forall₂_of_codewords (R := Eq)
    (fun c _ d _ _ => (codeword_escape hquote c).unique (codeword_escape hquote d))
    (fun c _ _ => (codeword_escape hquote c).append_ne hquote) hbody
  exact List.forall₂_eq_eq_eq ▸ hrows.1

end

end Quoted

theorem quoted_injective : Function.Injective quoted := fun _ _ h =>
  String.toList_inj.1 (Quoted.encode_injective (String.ofList_injective h))

theorem quoted_toList (text : String) :
    ∃ rest, (quoted text).toList = Quoted.mark text.toList :: rest :=
  ⟨_, String.toList_ofList⟩

/-! ## Payloads -/

theorem isPart_of_mem_text {x : Binary64} {c : Char} (h : c ∈ x.text.toList) :
    Numeral.isPart c = true := by
  rw [Binary64.text, String.toList_ofList] at h
  exact NumberFormat.isPart_of_mem_write h

/-- A text that begins with a quote displays neither a number nor the absence of a payload. -/
theorem Payload.eq_text_of_display {payload : Payload} {text : String}
    (h : payload.display = quoted text) : payload = .text text := by
  obtain ⟨rest, hquoted⟩ := quoted_toList text
  have hmark := Quoted.mark_eq text.toList
  cases payload with
  | absent =>
    have hnone : "None".toList = Quoted.mark text.toList :: rest := by rw [← hquoted, ← h]; rfl
    rw [← (List.cons.inj hnone).1] at hmark
    exact absurd hmark (by decide)
  | text value => rw [quoted_injective h]
  | number value =>
    have hpart : Numeral.isPart (Quoted.mark text.toList) = true := by
      refine isPart_of_mem_text (x := value) ?_
      rw [show value.text = quoted text from h, hquoted]
      exact List.mem_cons_self
    rcases hmark with hmark | hmark <;> rw [hmark] at hpart <;> cases hpart

/-- Different payloads are displayed differently. -/
theorem Payload.display_injective : Function.Injective Payload.display := by
  have hnone : ∀ x : Binary64, x.text ≠ "None" := by
    intro x h
    have hmem : 'N' ∈ x.text.toList := by
      rw [h]
      decide
    exact absurd (isPart_of_mem_text hmem) (by decide)
  intro p q h
  cases p with
  | text value => exact (Payload.eq_text_of_display h.symm).symm
  | absent =>
    cases q with
    | absent => rfl
    | text value => exact Payload.eq_text_of_display h
    | number value => exact absurd h.symm (hnone value)
  | number value =>
    cases q with
    | absent => exact absurd h (hnone value)
    | text value => exact Payload.eq_text_of_display h
    | number value' => rw [Binary64.text_injective h]

end ExprFront
