import ExprFront.Text.Utf8
import Mathlib.Data.List.Basic

/-!
# Decoding and encoding

Reading one byte at a time, with a range for the next one, decodes just the bytes that encode a
text. A character under way is completed by the bytes that it still needs, and these are the rest of
its code: the ranges keep out what is no code of a character, or a longer one than there has to be.
-/

namespace ExprFront.Utf8

/-- The bytes of a text. -/
def encode (text : List Char) : List UInt8 :=
  text.flatMap String.utf8EncodeChar

@[simp] theorem encode_cons (c : Char) (text : List Char) :
    encode (c :: text) = String.utf8EncodeChar c ++ encode text := rfl

/-! ## The code of a character -/

/-- The byte may stand behind the first one of a code. -/
def IsTail (byte : UInt8) : Prop :=
  0x80 ≤ byte.toNat ∧ byte.toNat ≤ 0xBF

section

variable {a b c d : UInt8} {n : Nat}

theorem toNat_val_ofNat (h : n.isValidChar) : (Char.ofNat n).val.toNat = n := by
  unfold Char.ofNat
  rw [dif_pos h]
  rfl

theorem ofNat_eq_of_toNat (h : n = b.toNat) : UInt8.ofNat n = b := by
  rw [h, UInt8.ofNat_toNat]

theorem encodeChar_one (h : a < 0x80) : String.utf8EncodeChar (Char.ofNat a.toNat) = [a] := by
  have ha : a.toNat < 0x80 := UInt8.lt_iff_toNat_lt.1 h
  have hvalid : a.toNat.isValidChar := .inl (by omega)
  unfold String.utf8EncodeChar
  dsimp only
  rw [toNat_val_ofNat hvalid, if_pos (by omega), ofNat_eq_of_toNat rfl]

theorem encodeChar_two (ha : 0xC2 ≤ a.toNat) (ha' : a.toNat < 0xE0) (hb : IsTail b)
    (hn : n = (a.toNat - 0xC0) * 64 + (b.toNat - 0x80)) :
    String.utf8EncodeChar (Char.ofNat n) = [a, b] := by
  obtain ⟨hb, hb'⟩ := hb
  have hvalid : n.isValidChar := .inl (by omega)
  unfold String.utf8EncodeChar
  dsimp only
  rw [toNat_val_ofNat hvalid, if_neg (by omega), if_pos (by omega),
    ofNat_eq_of_toNat (b := a) (by omega), ofNat_eq_of_toNat (b := b) (by omega)]

/-- The second byte keeps out what two bytes encode, and the surrogates. -/
theorem encodeChar_three (ha : 0xE0 ≤ a.toNat) (ha' : a.toNat < 0xF0) (hb : IsTail b)
    (hlong : a.toNat = 0xE0 → 0xA0 ≤ b.toNat) (hsurrogate : a.toNat = 0xED → b.toNat ≤ 0x9F)
    (hc : IsTail c)
    (hn : n = ((a.toNat - 0xE0) * 64 + (b.toNat - 0x80)) * 64 + (c.toNat - 0x80)) :
    String.utf8EncodeChar (Char.ofNat n) = [a, b, c] := by
  obtain ⟨hb, hb'⟩ := hb
  obtain ⟨hc, hc'⟩ := hc
  have hvalid : n.isValidChar := by
    unfold Nat.isValidChar
    omega
  unfold String.utf8EncodeChar
  dsimp only
  rw [toNat_val_ofNat hvalid, if_neg (by omega), if_neg (by omega), if_pos (by omega),
    ofNat_eq_of_toNat (b := a) (by omega), ofNat_eq_of_toNat (b := b) (by omega),
    ofNat_eq_of_toNat (b := c) (by omega)]

/-- The second byte keeps out what three bytes encode, and what is beyond the last character. -/
theorem encodeChar_four (ha : 0xF0 ≤ a.toNat) (ha' : a.toNat < 0xF5) (hb : IsTail b)
    (hlong : a.toNat = 0xF0 → 0x90 ≤ b.toNat) (hbeyond : a.toNat = 0xF4 → b.toNat ≤ 0x8F)
    (hc : IsTail c) (hd : IsTail d)
    (hn : n = (((a.toNat - 0xF0) * 64 + (b.toNat - 0x80)) * 64 + (c.toNat - 0x80)) * 64 +
      (d.toNat - 0x80)) :
    String.utf8EncodeChar (Char.ofNat n) = [a, b, c, d] := by
  obtain ⟨hb, hb'⟩ := hb
  obtain ⟨hc, hc'⟩ := hc
  obtain ⟨hd, hd'⟩ := hd
  have hvalid : n.isValidChar := by
    unfold Nat.isValidChar
    omega
  unfold String.utf8EncodeChar
  dsimp only
  rw [toNat_val_ofNat hvalid, if_neg (by omega), if_neg (by omega), if_neg (by omega),
    ofNat_eq_of_toNat (b := a) (by omega), ofNat_eq_of_toNat (b := b) (by omega),
    ofNat_eq_of_toNat (b := c) (by omega), ofNat_eq_of_toNat (b := d) (by omega)]

end

/-! ## Characters under way -/

namespace Partial

/-- The byte lies in the range of the next one. -/
def Admits (p : Partial) (byte : UInt8) : Prop :=
  p.least ≤ byte ∧ byte ≤ p.greatest

/-- The bytes complete the character under way. -/
inductive Completes : Partial → List UInt8 → Char → Prop where
  | last {p : Partial} {byte : UInt8} (hbyte : p.Admits byte) (hneeded : p.needed = 1) :
      Completes p [byte] (Char.ofNat (p.pushBits byte))
  | more {p : Partial} {byte : UInt8} {bytes : List UInt8} {c : Char} (hbyte : p.Admits byte)
      (hneeded : p.needed ≠ 1) (h : Completes (p.push byte) bytes c) :
      Completes p (byte :: bytes) c

section

variable {p : Partial} {offset : Nat} {byte byte' : UInt8} {bytes : List UInt8} {c : Char}

theorem admits_iff : p.Admits byte ↔
    p.least.toNat ≤ byte.toNat ∧ byte.toNat ≤ p.greatest.toNat := by
  simp only [Admits, UInt8.le_iff_toNat_le]

theorem pushBits_eq (p : Partial) (byte : UInt8) :
    p.pushBits byte = p.bits * 64 + (byte.toNat - 0x80) := rfl

theorem bits_push (p : Partial) (byte : UInt8) :
    (p.push byte).bits = p.bits * 64 + (byte.toNat - 0x80) := rfl

theorem needed_push (p : Partial) (byte : UInt8) : (p.push byte).needed = p.needed - 1 := rfl

theorem admits_push : (p.push byte).Admits byte' ↔ IsTail byte' :=
  admits_iff

theorem not_out_of_range (h : p.Admits byte) : ¬ (byte < p.least ∨ p.greatest < byte) := by
  simpa only [Admits, not_or, UInt8.not_lt] using h

theorem Completes.of_needed_one (h : p.Completes bytes c) (hneeded : p.needed = 1) :
    ∃ byte, bytes = [byte] ∧ p.Admits byte ∧ c = Char.ofNat (p.pushBits byte) := by
  cases h with
  | last hbyte _ => exact ⟨_, rfl, hbyte, rfl⟩
  | more _ hnot _ => exact absurd hneeded hnot

theorem Completes.of_needed_ne_one (h : p.Completes bytes c) (hneeded : p.needed ≠ 1) :
    ∃ byte rest, bytes = byte :: rest ∧ p.Admits byte ∧ (p.push byte).Completes rest c := by
  cases h with
  | last _ hone => exact absurd hone hneeded
  | more hbyte _ h => exact ⟨_, _, rfl, hbyte, h⟩

theorem Completes.of_last (hbyte : p.Admits byte) (hneeded : p.needed = 1)
    (hc : Char.ofNat (p.pushBits byte) = c) : p.Completes [byte] c :=
  hc ▸ .last hbyte hneeded

/-! ### First bytes -/

theorem not_ascii (h : 0xC2 ≤ byte.toNat) : ¬ byte < 0x80 := by
  rw [UInt8.not_lt, UInt8.le_iff_toNat_le]
  exact Nat.le_trans (by decide) h

/-- A first byte that needs one more. -/
theorem start?_two (offset : Nat) (h : 0xC2 ≤ byte.toNat) (h' : byte.toNat < 0xE0) :
    ∃ p, start? offset byte = some p ∧ p.needed = 1 ∧ p.bits = byte.toNat - 0xC0 ∧
      ∀ b, p.Admits b ↔ IsTail b := by
  unfold start?
  simp only [Nat.not_lt.2 h, h', if_true, if_false]
  exact ⟨_, rfl, rfl, rfl, fun b => admits_iff⟩

/-- A first byte that needs two more. -/
theorem start?_three (offset : Nat) (h : 0xE0 ≤ byte.toNat) (h' : byte.toNat < 0xF0) :
    ∃ p, start? offset byte = some p ∧ p.needed = 2 ∧ p.bits = byte.toNat - 0xE0 ∧
      ∀ b, p.Admits b ↔ IsTail b ∧ (byte.toNat = 0xE0 → 0xA0 ≤ b.toNat) ∧
        (byte.toNat = 0xED → b.toNat ≤ 0x9F) := by
  have hnone : ¬ byte.toNat < 0xC2 := by omega
  unfold start?
  simp only [hnone, Nat.not_lt.2 h, h', if_true, if_false]
  refine ⟨_, rfl, ?_⟩
  split_ifs
  all_goals
    refine ⟨rfl, rfl, fun b => admits_iff.trans ?_⟩
    simp only [IsTail, UInt8.reduceToNat]
    omega

/-- A first byte that needs three more. -/
theorem start?_four (offset : Nat) (h : 0xF0 ≤ byte.toNat) (h' : byte.toNat < 0xF5) :
    ∃ p, start? offset byte = some p ∧ p.needed = 3 ∧ p.bits = byte.toNat - 0xF0 ∧
      ∀ b, p.Admits b ↔ IsTail b ∧ (byte.toNat = 0xF0 → 0x90 ≤ b.toNat) ∧
        (byte.toNat = 0xF4 → b.toNat ≤ 0x8F) := by
  have hnone : ¬ byte.toNat < 0xC2 := by omega
  have htwo : ¬ byte.toNat < 0xE0 := by omega
  unfold start?
  simp only [hnone, htwo, Nat.not_lt.2 h, h', if_true, if_false]
  refine ⟨_, rfl, ?_⟩
  split_ifs
  all_goals
    refine ⟨rfl, rfl, fun b => admits_iff.trans ?_⟩
    simp only [IsTail, UInt8.reduceToNat]
    omega

theorem range_of_start? (h : start? offset byte = some p) :
    0xC2 ≤ byte.toNat ∧ byte.toNat < 0xF5 := by
  unfold start? at h
  dsimp only at h
  split_ifs at h <;> omega

/-- What completes a character is the rest of its code. -/
theorem encodeChar_of_completes (hstart : start? offset byte = some p)
    (h : p.Completes bytes c) : String.utf8EncodeChar c = byte :: bytes := by
  obtain ⟨hleast, hgreatest⟩ := range_of_start? hstart
  by_cases htwo : byte.toNat < 0xE0
  · obtain ⟨p', hp', hneeded, hbits, hadmits⟩ := start?_two offset hleast htwo
    cases hstart.symm.trans hp'
    obtain ⟨b, rfl, hb, hc⟩ := h.of_needed_one hneeded
    rw [hc]
    exact encodeChar_two hleast htwo ((hadmits b).1 hb) (by rw [pushBits_eq, hbits])
  by_cases hthree : byte.toNat < 0xF0
  · obtain ⟨p', hp', hneeded, hbits, hadmits⟩ := start?_three offset (Nat.le_of_not_lt htwo) hthree
    cases hstart.symm.trans hp'
    obtain ⟨b, _, rfl, hb, h⟩ := h.of_needed_ne_one (by omega)
    obtain ⟨b', rfl, hb', hc⟩ := h.of_needed_one (congrArg (· - 1) hneeded)
    obtain ⟨htail, hlong, hsurrogate⟩ := (hadmits b).1 hb
    rw [hc]
    exact encodeChar_three (Nat.le_of_not_lt htwo) hthree htail hlong hsurrogate
      (admits_push.1 hb') (by simp only [pushBits_eq, push, hbits])
  · obtain ⟨p', hp', hneeded, hbits, hadmits⟩ :=
      start?_four offset (Nat.le_of_not_lt hthree) hgreatest
    cases hstart.symm.trans hp'
    obtain ⟨b, _, rfl, hb, h⟩ := h.of_needed_ne_one (by omega)
    obtain ⟨b', _, rfl, hb', h⟩ :=
      h.of_needed_ne_one (by simp only [push, hneeded]; decide)
    obtain ⟨b'', rfl, hb'', hc⟩ := h.of_needed_one (congrArg (· - 1 - 1) hneeded)
    obtain ⟨htail, hlong, hbeyond⟩ := (hadmits b).1 hb
    rw [hc]
    exact encodeChar_four (Nat.le_of_not_lt hthree) hgreatest htail hlong hbeyond
      (admits_push.1 hb') (admits_push.1 hb'') (by simp only [pushBits_eq, push, hbits])

/-- A code is one byte below 0x80, or a first byte and the rest that completes its character. -/
theorem begins_of_encodeChar (offset : Nat) (h : String.utf8EncodeChar c = byte :: bytes) :
    (byte < 0x80 ∧ bytes = [] ∧ Char.ofNat byte.toNat = c) ∨
      ¬ byte < 0x80 ∧ ∃ p, start? offset byte = some p ∧ p.Completes bytes c := by
  have hcode : ∀ {m}, m = c.val.toNat → Char.ofNat m = c := fun hm => hm ▸ Char.ofNat_toNat c
  have hvalid : c.val.toNat.isValidChar := c.valid
  unfold Nat.isValidChar at hvalid
  unfold String.utf8EncodeChar at h
  dsimp only at h
  generalize c.val.toNat = n at h hcode hvalid
  -- the bytes are numbers below 256, those behind the first one between 0x80 and 0xBF
  have hbytes : ∀ m, m < 256 → (UInt8.ofNat m).toNat = m := fun m hm =>
    UInt8.toNat_ofNat_of_lt' hm
  have htoNat : ∀ m, (UInt8.ofNat (m % 64 + 128)).toNat = m % 64 + 128 :=
    fun m => hbytes _ (by omega)
  have htail : ∀ m, IsTail (UInt8.ofNat (m % 64 + 128)) := fun m => by
    unfold IsTail
    rw [htoNat]
    omega
  split_ifs at h with hone htwo hthree
  · obtain ⟨hfirst, rfl⟩ := List.cons.inj h
    have ha : byte.toNat = n := hfirst ▸ hbytes _ (by omega)
    rw [UInt8.lt_iff_toNat_lt, ha]
    exact .inl ⟨Nat.lt_succ_of_le hone, rfl, hcode rfl⟩
  · obtain ⟨hfirst, rfl⟩ := List.cons.inj h
    have ha : byte.toNat = n / 64 % 32 + 192 := hfirst ▸ hbytes _ (by omega)
    have hrange : 0xC2 ≤ byte.toNat ∧ byte.toNat < 0xE0 := by omega
    obtain ⟨p, hp, hneeded, hbits, hadmits⟩ := start?_two offset hrange.1 hrange.2
    refine .inr ⟨not_ascii (by omega), p, hp, .of_last ((hadmits _).2 (htail n)) hneeded (hcode ?_)⟩
    rw [pushBits_eq, hbits, ha, htoNat]
    omega
  · obtain ⟨hfirst, rfl⟩ := List.cons.inj h
    have ha : byte.toNat = n / 4096 % 16 + 224 := hfirst ▸ hbytes _ (by omega)
    have hrange : 0xE0 ≤ byte.toNat ∧ byte.toNat < 0xF0 := by omega
    obtain ⟨p, hp, hneeded, hbits, hadmits⟩ := start?_three offset hrange.1 hrange.2
    have hsecond : p.Admits (UInt8.ofNat (n / 64 % 64 + 128)) := by
      rw [hadmits, htoNat]
      exact ⟨htail _, by omega, by omega⟩
    refine .inr ⟨not_ascii (by omega), p, hp,
      .more hsecond (by omega) (.of_last (admits_push.2 (htail n)) ?_ (hcode ?_))⟩
    · rw [needed_push, hneeded]
    · rw [pushBits_eq, bits_push, hbits, ha, htoNat, htoNat]
      omega
  · obtain ⟨hfirst, rfl⟩ := List.cons.inj h
    have ha : byte.toNat = n / 262144 % 8 + 240 := hfirst ▸ hbytes _ (by omega)
    have hrange : 0xF0 ≤ byte.toNat ∧ byte.toNat < 0xF5 := by omega
    obtain ⟨p, hp, hneeded, hbits, hadmits⟩ := start?_four offset hrange.1 hrange.2
    have hsecond : p.Admits (UInt8.ofNat (n / 4096 % 64 + 128)) := by
      rw [hadmits, htoNat]
      exact ⟨htail _, by omega, by omega⟩
    refine .inr ⟨not_ascii (by omega), p, hp,
      .more hsecond (by omega) (.more (admits_push.2 (htail (n / 64))) ?_
        (.of_last (admits_push.2 (htail n)) ?_ (hcode ?_)))⟩
    · rw [needed_push, hneeded]
      decide
    · rw [needed_push, needed_push, hneeded]
    · rw [pushBits_eq, bits_push, bits_push, hbits, ha, htoNat, htoNat, htoNat]
      omega

end

end Partial

/-! ## Texts -/

section

variable {offset : Nat} {p : Partial} {bytes more : List UInt8} {text : List Char} {c : Char}

/-- A character under way is decoded from the bytes that complete it. -/
theorem decodeFrom_of_completes (h : p.Completes more c) (offset : Nat) (rest : List UInt8) :
    decodeFrom offset (some p) (more ++ rest) =
      (decodeFrom (offset + more.length) none rest).map (c :: ·) := by
  induction h generalizing offset with
  | last hbyte hneeded =>
    simp only [List.cons_append, decodeFrom, if_neg (Partial.not_out_of_range hbyte), hneeded,
      if_true]
    rfl
  | more hbyte hneeded h ih =>
    simp only [List.cons_append, decodeFrom, if_neg (Partial.not_out_of_range hbyte), hneeded,
      if_false]
    rw [ih, List.length_cons, Nat.add_assoc, Nat.add_comm 1]

/-- What is decoded begins with the character under way. -/
theorem exists_completes_of_decodeFrom (h : decodeFrom offset (some p) bytes = .ok text) :
    ∃ more rest c offset' text', bytes = more ++ rest ∧ p.Completes more c ∧ text = c :: text' ∧
      decodeFrom offset' none rest = .ok text' := by
  induction bytes generalizing offset p with
  | nil => cases h
  | cons byte bytes ih =>
    rw [decodeFrom] at h
    split_ifs at h with hout hneeded
    · have hbyte : p.Admits byte := by simpa [Partial.Admits] using hout
      cases hrest : decodeFrom (offset + 1) none bytes with
      | error fault =>
        rw [hrest] at h
        cases h
      | ok text' =>
        rw [hrest] at h
        cases h
        exact ⟨[byte], bytes, _, _, text', rfl, .last hbyte hneeded, rfl, hrest⟩
    · have hbyte : p.Admits byte := by simpa [Partial.Admits] using hout
      obtain ⟨more, rest, c, offset', text', rfl, hmore, htext, hrest⟩ := ih h
      exact ⟨byte :: more, rest, c, offset', text', rfl, .more hbyte hneeded hmore, htext, hrest⟩

theorem decodeFrom_encode (offset : Nat) (text : List Char) :
    decodeFrom offset none (encode text) = .ok text := by
  induction text generalizing offset with
  | nil => rfl
  | cons c text ih =>
    have hne : String.utf8EncodeChar c ≠ [] := String.utf8EncodeChar_ne_nil
    obtain ⟨byte, more, hcode⟩ := List.exists_cons_of_ne_nil hne
    rw [encode_cons, hcode, List.cons_append, decodeFrom]
    obtain ⟨hascii, rfl, rfl⟩ | ⟨hlong, p, hp, hmore⟩ := Partial.begins_of_encodeChar offset hcode
    · rw [if_pos hascii, List.nil_append, ih]
      rfl
    · rw [if_neg hlong, hp]
      dsimp only
      rw [decodeFrom_of_completes hmore, ih]
      rfl

theorem eq_encode_of_decodeFrom {bytes : List UInt8} {offset : Nat} {text : List Char}
    (h : decodeFrom offset none bytes = .ok text) : bytes = encode text := by
  cases bytes with
  | nil =>
    cases h
    rfl
  | cons byte bytes =>
    rw [decodeFrom] at h
    -- induction on the bytes: the first one is a character, or one under way is completed
    split_ifs at h with hascii
    · cases hrest : decodeFrom (offset + 1) none bytes with
      | error fault =>
        rw [hrest] at h
        cases h
      | ok text' =>
        rw [hrest] at h
        cases h
        rw [encode_cons, encodeChar_one hascii, ← eq_encode_of_decodeFrom hrest]
        rfl
    · cases hp : Partial.start? offset byte with
      | none =>
        rw [hp] at h
        cases h
      | some p =>
        rw [hp] at h
        obtain ⟨more, rest, c, offset', text', rfl, hmore, rfl, hrest⟩ :=
          exists_completes_of_decodeFrom h
        have hlength : rest.length ≤ (more ++ rest).length := by simp
        rw [encode_cons, Partial.encodeChar_of_completes hp hmore,
          ← eq_encode_of_decodeFrom hrest]
        rfl
termination_by bytes.length

/-- The bytes that are decoded are those that encode the text. -/
theorem decode_eq_ok_iff : decode bytes = .ok text ↔ bytes = encode text :=
  ⟨eq_encode_of_decodeFrom, fun h => h ▸ decodeFrom_encode 0 text⟩

end

end ExprFront.Utf8
