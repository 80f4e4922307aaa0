import ExprFront.Proofs.Grammar.Exact
import ExprFront.Proofs.Scan.Joining

/-!
# Trees of scanned texts

No text is scanned to the undefined number: a number token is digits, with a fraction or without.
So the trees that are parsed from texts are concrete, and each equals itself and all that are alike.
-/

namespace ExprFront

/-! ## Payloads of scanned tokens -/

theorem Binary64.ofDecimal_ne_nan (negative : Bool) (coefficient : Nat) (exponent : Int) :
    ofDecimal negative coefficient exponent ≠ .nan := by
  unfold ofDecimal
  split_ifs
  · rintro ⟨⟩
  · rintro ⟨⟩
  · rintro ⟨⟩
  · unfold ofRatio
    dsimp only
    split_ifs <;> rintro ⟨⟩

section

variable {kind : TokenKind} {text : List Char} {payload : Payload}

/-- The lexemes of numbers are digits, with a fraction or without. -/
theorem Lexeme.number?_ne_nan {value : Binary64} (h : Lexeme .number text)
    (hvalue : Numeral.number? text = some value) : value ≠ .nan := by
  -- the kinds of other lexemes carry nothing
  have hfixed : ∀ {text}, ¬ Denotes .number text .absent := by
    rintro text (_ | _ | hnumber)
    exact absurd rfl hnumber
  generalize hkind : TokenKind.number = kind at h
  cases h with
  | punctuation hc => exact absurd (Scanner.denotes_punctuation (hkind ▸ hc)) (@hfixed [])
  | sign hc => exact absurd (Scanner.denotes_sign (hkind ▸ hc)).1 (@hfixed [])
  | doubled hc => exact absurd (Scanner.denotes_sign (hkind ▸ hc)).2 (@hfixed [])
  | @word c rest hc hrest =>
    unfold TokenKind.ofWord at hkind
    cases hkeyword : TokenKind.ofKeyword? (c :: rest) with
    | none => simp [hkeyword] at hkind
    | some kind =>
      simp only [hkeyword, Option.getD_some] at hkind
      exact absurd (Scanner.denotes_keyword (hkind ▸ hkeyword)) hfixed
  | digits hc hwhole =>
    rw [Numeral.number?_digits (List.cons_ne_nil _ _) (by simpa [hc] using hwhole)] at hvalue
    cases hvalue
    exact Binary64.ofDecimal_ne_nan _ _ _
  | @fraction c d whole fraction hc hwhole hd hfraction =>
    rw [← List.cons_append, Numeral.number?_fraction (List.cons_ne_nil _ _)
      (by simpa [hc] using hwhole) (by simpa [hd] using hfraction)] at hvalue
    cases hvalue
    exact Binary64.ofDecimal_ne_nan _ _ _

theorem Denotes.isDefined (h : Denotes kind text payload) (hlexeme : Lexeme kind text) :
    payload.isDefined = true := by
  cases h with
  | @number _ value hvalue =>
    have hne := hlexeme.number?_ne_nan hvalue
    cases value <;> first | rfl | exact absurd rfl hne
  | name => rfl
  | fixed hnumber hname => rfl

/-- No token of a text carries the undefined number. -/
theorem Divides.isDefined {tabSize : Int} {p : Place} {segments : List (List Char × List Char)}
    {remainder : List Char} {items : List ScanItem}
    (h : Divides tabSize p segments remainder items) :
    ∀ t, .token t ∈ items → t.payload.isDefined = true := by
  intro t ht
  obtain ⟨q, ahead, text, hitem⟩ := h.exists_itemAt _ ht
  cases hitem with
  | token hlongest hpayload => exact hpayload.isDefined hlongest.lexeme

theorem tokenize_isDefined {tabSize : Int} {tokens : List Token}
    (h : tokenize tabSize text = .ok tokens) : ∀ t ∈ tokens, t.payload.isDefined = true := by
  obtain ⟨segments, remainder, -, hdivides⟩ := tokenize_eq_ok_iff.1 h
  exact fun t ht => hdivides.isDefined t (List.mem_map_of_mem ht)

end

/-! ## Concrete trees -/

/-- Does the phrase stand for concrete trees? -/
def Phrase.isConcrete : Phrase → Bool
  | .expression _ _ tree => tree.isConcrete
  | .statements exprs last => Node.isConcreteAll exprs && last.isConcrete
  | .arguments args => Node.isConcreteAll args

theorem Node.isConcrete_binary {p : Position} {op : BinaryOp} {left right : Node} :
    (binary p op left right).isConcrete = (left.isConcrete && right.isConcrete) := by
  cases op <;> simp only [binary, isConcrete]

/-- Tokens that carry nothing undefined derive concrete trees. -/
theorem Derives.isConcrete {tokens : List Token} {phrase : Phrase} (h : Derives tokens phrase)
    (hdefined : ∀ t ∈ tokens, t.payload.isDefined = true) : phrase.isConcrete = true := by
  induction h <;>
    simp_all [Phrase.isConcrete, Node.isConcrete, Node.isConcreteAll, Node.isConcrete_binary]

/-- What is parsed from a text is concrete. -/
theorem parse_isConcrete {tabSize maxDepth : Int} {text : List Char} {tokens : List Token}
    {tree : Node} (h : tokenize tabSize text = .ok tokens)
    (hparse : parse maxDepth tokens = .ok tree) :
    tree.isConcrete = true := by
  obtain ⟨p, exprs, last, rfl, hderives⟩ := isProgram_of_parse hparse
  simpa only [Node.isConcrete, Phrase.isConcrete] using
    hderives.isConcrete (tokenize_isDefined h)

end ExprFront
