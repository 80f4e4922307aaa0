import ExprFront.Proofs.Scan.Touching
import ExprFront.Proofs.Tree.Concrete
import Mathlib.Data.List.Chain

/-!
# Lexemes among blanks

Lexemes written one behind the other are scanned to themselves if and only if no two neighbours
merge. Blanks keep any two apart, and it makes no difference to the tokens which blanks they are.
-/

namespace ExprFront

/-! ## Lexemes among blanks -/

/-- The text is that of a token of some scanned text. -/
def IsTokenText (text : List Char) : Prop :=
  ∃ tabSize, ∃ source : List Char, ∃ items t, scan tabSize source = .ok items ∧
    ScanItem.token t ∈ items ∧ t.span.toList = text

/-- The texts of tokens with blanks around them. -/
structure Spaced (segments : List (List Char × List Char)) (remainder : List Char) : Prop where
  blank : ∀ segment ∈ segments, ∀ c ∈ segment.1, isBlank c = true
  text : ∀ segment ∈ segments, IsTokenText segment.2
  remainder : ∀ c ∈ remainder, isBlank c = true

/-- No text merges with the one behind it, if nothing stands between them. -/
def Apart (segments : List (List Char × List Char)) : Prop :=
  segments.IsChain fun segment segment' => segment'.1 = [] → ¬ Merge segment.2 segment'.2

section

variable {tabSize : Int} {p : Place} {kind : TokenKind} {blank text remainder remainder' : List Char}
  {segments segments' : List (List Char × List Char)} {items : List ScanItem} {tokens : List Token}

theorem Lexeme.exists_denotes (h : Lexeme kind text) : ∃ payload, Denotes kind text payload := by
  cases h with
  | punctuation hc => exact ⟨_, Scanner.denotes_punctuation hc⟩
  | sign hc => exact ⟨_, (Scanner.denotes_sign hc).1⟩
  | doubled hc => exact ⟨_, (Scanner.denotes_sign hc).2⟩
  | digits hc hwhole =>
    exact ⟨_, .number (Numeral.number?_digits (List.cons_ne_nil _ _)
      (List.forall_mem_cons.2 ⟨hc, hwhole⟩))⟩
  | fraction hc hwhole hd hfraction =>
    rw [← List.cons_append]
    exact ⟨_, .number (Numeral.number?_fraction (List.cons_ne_nil _ _)
      (List.forall_mem_cons.2 ⟨hc, hwhole⟩) (List.forall_mem_cons.2 ⟨hd, hfraction⟩))⟩
  | @word c rest hc hrest =>
    unfold TokenKind.ofWord
    cases hkeyword : TokenKind.ofKeyword? (c :: rest) with
    | none => exact ⟨_, .name⟩
    | some kind => exact ⟨_, Scanner.denotes_keyword hkeyword⟩

theorem Lexeme.isLongest (h : Lexeme kind text) : IsLongest kind text (text ++ []) :=
  isLongest_iff.2 ⟨h, fun _ hne hnext => absurd (List.prefix_nil.1 hnext) hne⟩

/-- The token is of the kind of its text, and carries what its text stands for. -/
structure Token.OfText (t : Token) : Prop where
  lexeme : Lexeme t.kind t.span.toList
  denotes : Denotes t.kind t.span.toList t.payload

theorem ItemAt.ofText {ahead : List Char} {t : Token} (h : ItemAt p ahead text (.token t)) :
    t.OfText ∧ t.span.toList = text := by
  cases h with
  | @token kind text payload hlongest hpayload =>
    have htext : (p.token kind payload text).span.toList = text := String.toList_ofList
    refine ⟨⟨?_, ?_⟩, htext⟩
    · rw [faces_chars, htext]
      exact hlongest.lexeme
    · rw [faces_chars, htext]
      exact hpayload

/-- The texts of tokens are the lexemes. -/
theorem isTokenText_iff : IsTokenText text ↔ ∃ kind, Lexeme kind text := by
  constructor
  · rintro ⟨tabSize, source, items, t, hrun, ht, rfl⟩
    obtain ⟨segments, remainder, -, hdivides⟩ := itemsAt_of_scan hrun
    obtain ⟨p, ahead, text, hitem⟩ := hdivides.exists_itemAt _ ht
    exact ⟨t.kind, hitem.ofText.1.lexeme⟩
  · rintro ⟨kind, h⟩
    obtain ⟨payload, hpayload⟩ := h.exists_denotes
    obtain ⟨c, rest, rfl⟩ := h.exists_cons
    have hdivides : Divides 4 .first [([], c :: rest)] []
        [.token (Place.first.token kind payload (c :: rest))] :=
      .item (by simp) rfl (h.not_blank c (List.mem_cons_self ..)) (.token h.isLongest hpayload)
        (.remainder (by simp))
    have hrun := hdivides.scan_joined.trans (ScanItem.raisedAll_tokens [_])
    exact ⟨4, _, _, _, hrun, List.mem_cons_self .., String.toList_ofList⟩

theorem Spaced.cons (h : Spaced ((blank, text) :: segments) remainder) :
    (∀ c ∈ blank, isBlank c = true) ∧ (∃ kind, Lexeme kind text) ∧ Spaced segments remainder := by
  refine ⟨h.blank _ (List.mem_cons_self ..), ?_, ?_⟩
  · exact isTokenText_iff.1 (h.text _ (List.mem_cons_self ..))
  · exact ⟨fun segment hmem => h.blank segment (List.mem_cons_of_mem _ hmem),
      fun segment hmem => h.text segment (List.mem_cons_of_mem _ hmem), h.remainder⟩

/-- A blank ends every lexeme. -/
theorem goesOn_of_blank {c d : Char} (h : Lexeme kind (c :: text)) (hd : isBlank d = true) :
    goesOn c text d = false := by
  rw [← Bool.not_eq_true, ← h.exists_concat_iff]
  rintro ⟨kind', hlexeme⟩
  have hnot := hlexeme.not_blank d (by simp)
  rw [hd] at hnot
  cases hnot

/-- A lexeme is the longest ahead unless it touches the next one and merges with it. -/
theorem isLongest_joined_iff (h : Lexeme kind text) (hs : Spaced segments remainder) :
    IsLongest kind text (text ++ joined segments remainder) ↔
      ∀ segment ∈ segments.head?, segment.1 = [] → ¬ Merge text segment.2 := by
  obtain ⟨c, text, rfl⟩ := h.exists_cons
  have hblank : ∀ d rest, isBlank d = true → IsLongest kind (c :: text) (c :: text ++ d :: rest) :=
    fun d rest hd => (isLongest_cons_iff h (by rintro rfl; cases hd)).2 (goesOn_of_blank h hd)
  -- what comes next is the end of the text, the next lexeme itself, or a blank before it
  match segments with
  | [] =>
    simp only [joined, List.head?_nil, Option.not_mem_none, false_imp_iff, implies_true, iff_true]
    cases remainder with
    | nil => exact h.isLongest
    | cons d remainder => exact hblank d remainder (hs.remainder d (List.mem_cons_self ..))
  | ([], text') :: segments =>
    obtain ⟨-, ⟨kind', h'⟩, -⟩ := hs.cons
    obtain ⟨d, text', rfl⟩ := h'.exists_cons
    simp only [joined, List.nil_append, List.cons_append]
    rw [← List.cons_append, isLongest_cons_iff h h'.ne_point, ← Bool.not_eq_true, ← merge_iff h h']
    simp
  | (d :: blank, text') :: segments =>
    have hd := hs.cons.1 d (List.mem_cons_self ..)
    simpa [joined] using hblank d _ hd

theorem apart_cons {segment : List Char × List Char} : Apart (segment :: segments) ↔
    (∀ segment' ∈ segments.head?, segment'.1 = [] → ¬ Merge segment.2 segment'.2) ∧
      Apart segments :=
  List.isChain_cons

/-- Lexemes among blanks divide their text into tokens if and only if they are kept apart. -/
theorem exists_divides_tokens_iff (tabSize : Int) (p : Place) (hs : Spaced segments remainder) :
    (∃ tokens : List Token, Divides tabSize p segments remainder (tokens.map .token)) ↔
      Apart segments := by
  induction segments generalizing p with
  | nil => exact ⟨fun _ => .nil, fun _ => ⟨[], .remainder hs.remainder⟩⟩
  | cons segment segments ih =>
    obtain ⟨blank, text⟩ := segment
    obtain ⟨hblank, ⟨kind, hlexeme⟩, hrest⟩ := hs.cons
    rw [apart_cons, ← isLongest_joined_iff hlexeme hrest]
    constructor
    · rintro ⟨tokens, h⟩
      generalize hitems : tokens.map ScanItem.token = items at h
      cases h with
      | item _ _ _ hitem hdivides =>
        obtain ⟨t, tokens, rfl, rfl, rfl⟩ := List.map_eq_cons_iff.1 hitems
        refine ⟨?_, (ih _ hrest).1 ⟨tokens, hdivides⟩⟩
        cases hitem with
        | token hlongest _ =>
          obtain rfl := hlexeme.kind_eq hlongest.lexeme
          exact hlongest
    · rintro ⟨hlongest, hapart⟩
      obtain ⟨tokens, hdivides⟩ : ∃ tokens : List Token,
          Divides tabSize (p.after tabSize (blank ++ text)) segments remainder (tokens.map .token) :=
        (ih _ hrest).2 hapart
      obtain ⟨payload, hpayload⟩ := hlexeme.exists_denotes
      obtain ⟨c, text, rfl⟩ := hlexeme.exists_cons
      have hc := hlexeme.not_blank c (List.mem_cons_self ..)
      exact ⟨_ :: tokens, .item hblank rfl hc (.token hlongest hpayload) hdivides⟩

/-- Tokens have the texts that their text is divided into. -/
theorem Divides.texts_eq (h : Divides tabSize p segments remainder (tokens.map .token)) :
    tokens.map (·.span.toList) = segments.map Prod.snd := by
  generalize hitems : tokens.map ScanItem.token = items at h
  induction h generalizing tokens with
  | remainder _ => simp_all
  | item _ _ _ hitem _ ih =>
    obtain ⟨t, tokens, rfl, rfl, rfl⟩ := List.map_eq_cons_iff.1 hitems
    rw [List.map_cons, List.map_cons, hitem.ofText.2, ih rfl]

/-- A text that is divided into tokens is their texts among blanks. -/
theorem Divides.spaced (h : Divides tabSize p segments remainder (tokens.map .token)) :
    Spaced segments remainder := by
  generalize hitems : tokens.map ScanItem.token = items at h
  induction h generalizing tokens with
  | remainder hblank => exact ⟨by simp, by simp, hblank⟩
  | item hblank _ _ hitem _ ih =>
    obtain ⟨t, tokens, rfl, rfl, rfl⟩ := List.map_eq_cons_iff.1 hitems
    obtain ⟨hblanks, htexts, hremainder⟩ := ih rfl
    obtain ⟨hof, rfl⟩ := hitem.ofText
    exact ⟨List.forall_mem_cons.2 ⟨hblank, hblanks⟩,
      List.forall_mem_cons.2 ⟨isTokenText_iff.2 ⟨t.kind, hof.lexeme⟩, htexts⟩, hremainder⟩

/-- Lexemes among blanks are where a division finds its items, if the texts are the same. -/
theorem Divides.eq_of_texts (h : Divides tabSize p segments remainder items)
    (hs : Spaced segments' remainder')
    (hjoined : joined segments remainder = joined segments' remainder')
    (htexts : segments.map Prod.snd = segments'.map Prod.snd) :
    segments = segments' ∧ remainder = remainder' := by
  induction h generalizing segments' with
  | remainder _ =>
    obtain rfl := List.map_eq_nil_iff.1 htexts.symm
    exact ⟨rfl, hjoined⟩
  | @item p blank text remainder c segments item items hblank hfirst hc hitem hrest ih =>
    obtain ⟨⟨blank', text'⟩, segments', rfl, rfl, htexts'⟩ := List.map_eq_cons_iff.1 htexts.symm
    obtain ⟨hblank', -, hs'⟩ := hs.cons
    simp only [joined] at hjoined
    obtain rfl : blank = blank' := by
      rw [← takeWhile_isBlank hblank hfirst hc, hjoined, takeWhile_isBlank hblank' hfirst hc]
    have hrest' := List.append_cancel_left (List.append_cancel_left hjoined)
    obtain ⟨rfl, rfl⟩ := ih hs' hrest' htexts'.symm
    exact ⟨rfl, rfl⟩

/-- Lexemes among blanks are scanned to themselves if and only if they are kept apart. -/
theorem exists_tokens_iff (hs : Spaced segments remainder) :
    (∃ tokens : List Token, scan tabSize (joined segments remainder) = .ok (tokens.map .token) ∧
      tokens.map (·.span.toList) = segments.map Prod.snd) ↔ Apart segments := by
  rw [← exists_divides_tokens_iff tabSize .first hs]
  constructor
  · rintro ⟨tokens, hrun, htexts⟩
    obtain ⟨segments', remainder', hjoined, hdivides⟩ := scan_eq_tokens_iff.1 hrun
    obtain ⟨rfl, rfl⟩ := hdivides.eq_of_texts hs hjoined.symm (hdivides.texts_eq.symm.trans htexts)
    exact ⟨tokens, hdivides⟩
  · rintro ⟨tokens, hdivides⟩
    exact ⟨tokens, scan_eq_tokens_iff.2 ⟨_, _, rfl, hdivides⟩, hdivides.texts_eq⟩

/-! ## Tokens by their texts -/

/-- The text of a scanned token tells all of it but where it stands. -/
theorem tokenize_ofText (h : tokenize tabSize text = .ok tokens) : ∀ t ∈ tokens, t.OfText := by
  intro t ht
  obtain ⟨segments, remainder, -, hdivides⟩ := tokenize_eq_ok_iff.1 h
  obtain ⟨q, ahead, text, hitem⟩ := hdivides.exists_itemAt _ (List.mem_map_of_mem ht)
  exact hitem.ofText.1

theorem Token.OfText.equals {t t' : Token} (h : t.OfText) (h' : t'.OfText)
    (htext : t.span.toList = t'.span.toList) : t.equals t' = true := by
  obtain ⟨hlexeme', hdenotes'⟩ := h'
  rw [← htext] at hlexeme' hdenotes'
  have hkind := h.lexeme.kind_eq hlexeme'
  have hpayload := h.denotes.unique (hkind ▸ hdenotes')
  rw [Token.equals, ← hkind, ← hpayload, Payload.equals_self (h.denotes.isDefined h.lexeme),
    beq_self_eq_true, Bool.and_self]

/-- Rows of tokens with the same texts are equal. -/
theorem Token.equalsAll_of_texts {tokens' : List Token} (h : ∀ t ∈ tokens, t.OfText)
    (h' : ∀ t ∈ tokens', t.OfText)
    (htexts : tokens.map (·.span.toList) = tokens'.map (·.span.toList)) :
    equalsAll tokens tokens' = true := by
  induction tokens generalizing tokens' with
  | nil =>
    obtain rfl := List.map_eq_nil_iff.1 htexts.symm
    rfl
  | cons t tokens ih =>
    obtain ⟨t', tokens', rfl, htext, htexts'⟩ := List.map_eq_cons_iff.1 htexts.symm
    obtain ⟨ht, htokens⟩ := List.forall_mem_cons.1 h
    obtain ⟨ht', htokens'⟩ := List.forall_mem_cons.1 h'
    have hequals := ih htokens htokens' htexts'.symm
    simp_all [equalsAll, ht.equals ht' htext.symm]

/-! ## Other blanks -/

/-- The same texts with other blanks. There may be blanks where there were none, but two texts that
had blanks between them keep some. -/
structure Respaced (segments segments' : List (List Char × List Char)) : Prop where
  texts : segments'.map Prod.snd = segments.map Prod.snd
  blanks : List.Forall₂ (fun segment segment' => segment'.1 = [] → segment.1 = [])
    segments.tail segments'.tail

/-- Texts that were apart stay so. -/
theorem Respaced.apart (h : Respaced segments segments') (hapart : Apart segments) :
    Apart segments' := by
  obtain ⟨htexts, hblanks⟩ := h
  induction segments generalizing segments' with
  | nil =>
    obtain rfl := List.map_eq_nil_iff.1 htexts
    exact .nil
  | cons segment segments ih =>
    obtain ⟨segment', segments', rfl, htext, htexts'⟩ := List.map_eq_cons_iff.1 htexts
    obtain ⟨hhead, hrest⟩ := apart_cons.1 hapart
    replace hblanks : List.Forall₂ _ segments segments' := hblanks
    cases hblanks with
    | nil => exact .singleton _
    | @cons next next' segments segments' hblank hblanks =>
      obtain ⟨hnext, -⟩ := List.cons.inj htexts'
      refine apart_cons.2 ⟨?_, ih hrest htexts' hblanks⟩
      simp only [List.head?_cons, Option.mem_some, forall_eq'] at hhead ⊢
      rw [htext, hnext]
      exact fun hnil => hhead (hblank hnil)

/-- Texts with a space between any two. -/
def spacedOut : List (List Char) → List (List Char × List Char)
  | [] => []
  | text :: texts => ([], text) :: texts.map ([' '], ·)

theorem spacedOut_texts (texts : List (List Char)) : (spacedOut texts).map Prod.snd = texts := by
  cases texts <;> simp [spacedOut, Function.comp_def]

theorem joined_spacedOut (texts : List (List Char)) :
    joined (spacedOut texts) [] = [' '].intercalate texts := by
  have hrest : ∀ text texts, text ++ joined (texts.map ([' '], ·)) [] =
      [' '].intercalate (text :: texts) := by
    intro text texts
    induction texts generalizing text with
    | nil => simp [joined]
    | cons next texts ih => simp [joined, ih]
  cases texts with
  | nil => rfl
  | cons text texts => exact hrest text texts

theorem Spaced.spacedOut (h : Spaced segments remainder) :
    Spaced (spacedOut (segments.map Prod.snd)) [] where
  blank := by
    cases segments with
    | nil => simp [ExprFront.spacedOut]
    | cons segment segments =>
      simp only [List.map_cons, ExprFront.spacedOut, List.map_map, List.forall_mem_cons,
        List.forall_mem_map]
      exact ⟨by simp, fun _ _ => List.forall_mem_singleton.2 rfl⟩
  text segment hsegment := by
    have hmem : segment.2 ∈ segments.map Prod.snd := by
      rw [← spacedOut_texts (segments.map Prod.snd)]
      exact List.mem_map_of_mem hsegment
    obtain ⟨segment', hsegment', htext⟩ := List.mem_map.1 hmem
    exact htext ▸ h.text segment' hsegment'
  remainder := by simp

theorem respaced_spacedOut (segments : List (List Char × List Char)) :
    Respaced segments (spacedOut (segments.map Prod.snd)) where
  texts := spacedOut_texts _
  blanks := by
    cases segments with
    | nil => exact .nil
    | cons segment segments =>
      simp only [List.map_cons, spacedOut, List.tail_cons, List.map_map, List.forall₂_map_right_iff,
        List.forall₂_same]
      exact fun _ _ hnil => absurd hnil (List.cons_ne_nil ' ' [])

/-- With other blanks a text has equal tokens. -/
theorem Respaced.exists_tokens (h : Respaced segments segments') (hs : Spaced segments remainder)
    (hs' : Spaced segments' remainder')
    (hrun : tokenize tabSize (joined segments remainder) = .ok tokens)
    (htexts : tokens.map (·.span.toList) = segments.map Prod.snd) :
    ∃ tokens', tokenize tabSize (joined segments' remainder') = .ok tokens' ∧
      Token.equalsAll tokens tokens' = true := by
  have hscan := scan_eq_tokens_iff.2 (tokenize_eq_ok_iff.1 hrun)
  have hapart := (exists_tokens_iff hs).1 ⟨tokens, hscan, htexts⟩
  obtain ⟨tokens', hscan', htexts'⟩ := (exists_tokens_iff hs').2 (h.apart hapart)
  have hrun' : tokenize tabSize (joined segments' remainder') = .ok tokens' :=
    tokenize_eq_ok_iff.2 (scan_eq_tokens_iff.1 hscan')
  have hsame : tokens.map (·.span.toList) = tokens'.map (·.span.toList) := by
    rw [htexts, htexts', h.texts]
  exact ⟨tokens', hrun',
    Token.equalsAll_of_texts (tokenize_ofText hrun) (tokenize_ofText hrun') hsame⟩

end

/-- Texts of tokens that are written with any blanks around them are scanned to themselves if and
only if no two of them touch that merge, and with other blanks between them they are scanned to equal
tokens. Every text with tokens is written so, and has equal tokens with single spaces instead. -/
theorem tokenize_spaced (tabSize : Int) :
    (∀ segments remainder, Spaced segments remainder →
      ((∃ tokens : List Token, scan tabSize (joined segments remainder) = .ok (tokens.map .token) ∧
        tokens.map (·.span.toList) = segments.map Prod.snd) ↔ Apart segments) ∧
      ∀ segments' remainder' tokens, Spaced segments' remainder' → Respaced segments segments' →
        tokenize tabSize (joined segments remainder) = .ok tokens →
        tokens.map (·.span.toList) = segments.map Prod.snd →
        ∃ tokens', tokenize tabSize (joined segments' remainder') = .ok tokens' ∧
          Token.equalsAll tokens tokens' = true) ∧
    ∀ text tokens, tokenize tabSize text = .ok tokens →
      (∃ segments remainder, text = joined segments remainder ∧ Spaced segments remainder ∧
        tokens.map (·.span.toList) = segments.map Prod.snd) ∧
      ∃ tokens', tokenize tabSize ([' '].intercalate (tokens.map (·.span.toList))) = .ok tokens' ∧
        Token.equalsAll tokens tokens' = true := by
  constructor
  · intro segments remainder hs
    refine ⟨exists_tokens_iff hs, fun segments' remainder' tokens hs' hrespaced hrun htexts => ?_⟩
    exact hrespaced.exists_tokens hs hs' hrun htexts
  · intro text tokens hrun
    obtain ⟨segments, remainder, rfl, hdivides⟩ := tokenize_eq_ok_iff.1 hrun
    have hs := hdivides.spaced
    have htexts := hdivides.texts_eq
    refine ⟨⟨segments, remainder, rfl, hs, htexts⟩, ?_⟩
    rw [htexts, ← joined_spacedOut]
    exact (respaced_spacedOut segments).exists_tokens hs hs.spacedOut hrun htexts

/-- A space keeps two signs apart, and so do a line feed and a space; without blanks the signs merge.
A name may touch the sign before it. -/
theorem tokenize_spaced_signs :
    let kept := [([], ['<']), ([' '], ['=']), ([], ['a'])]
    let wide := [([], ['<']), (['\n', ' '], ['=']), ([], ['a'])]
    let touching := [([], ['<']), ([], ['=']), ([], ['a'])]
    Spaced kept [] ∧ Spaced wide [] ∧ Spaced touching [] ∧ Respaced kept wide ∧
      (∃ tokens : List Token, tokenize 4 (joined kept []) = .ok tokens ∧
        tokens.map (·.span.toList) = [['<'], ['='], ['a']] ∧
        (∃ tokens', tokenize 4 (joined wide []) = .ok tokens' ∧
          Token.equalsAll tokens tokens' = true) ∧
        ∃ tokens', tokenize 4 ['<', ' ', '=', ' ', 'a'] = .ok tokens' ∧
          Token.equalsAll tokens tokens' = true) ∧
      ¬ ∃ tokens : List Token, scan 4 (joined touching []) = .ok (tokens.map .token) ∧
        tokens.map (·.span.toList) = [['<'], ['='], ['a']] := by
  intro kept wide touching
  obtain ⟨hall, hspaces⟩ := tokenize_spaced 4
  have hless : Lexeme .less ['<'] := .sign rfl
  have hequal : Lexeme .equal ['='] := .sign rfl
  have hname : Lexeme (.ofWord ['a']) ['a'] := .word (by decide +kernel) (by simp)
  have hspaced : ∀ segments : List (List Char × List Char),
      segments.map Prod.snd = [['<'], ['='], ['a']] →
      (∀ segment ∈ segments, ∀ c ∈ segment.1, isBlank c = true) → Spaced segments [] := by
    refine fun segments htexts hblank => ⟨hblank, fun segment hmem => ?_, by simp⟩
    have htext : segment.2 ∈ [['<'], ['='], ['a']] := htexts ▸ List.mem_map_of_mem hmem
    rw [isTokenText_iff]
    simp only [List.mem_cons, List.not_mem_nil, or_false] at htext
    rcases htext with htext | htext | htext <;> rw [htext]
    exacts [⟨_, hless⟩, ⟨_, hequal⟩, ⟨_, hname⟩]
  have hkept := hspaced kept rfl (by simp [kept, isBlank, blanks])
  have hwide := hspaced wide rfl (by simp [wide, isBlank, blanks])
  have htouching := hspaced touching rfl (by simp [touching, isBlank, blanks])
  have hrespaced : Respaced kept wide := ⟨rfl, .cons (by simp) (.cons (by simp) .nil)⟩
  have hmerge : ¬ Merge ['='] ['a'] := (merge_iff hequal hname).not.2 (by decide +kernel)
  have hapart : Apart kept := .cons_cons (fun h => absurd h (List.cons_ne_nil ' ' []))
    (.cons_cons (fun _ => hmerge) (.singleton _))
  obtain ⟨tokens, hscan, htexts⟩ := (hall kept [] hkept).1.2 hapart
  have hrun : tokenize 4 (joined kept []) = .ok tokens :=
    tokenize_eq_ok_iff.2 (scan_eq_tokens_iff.1 hscan)
  refine ⟨hkept, hwide, htouching, hrespaced, ⟨tokens, hrun, htexts, ?_, ?_⟩, fun hrefuted => ?_⟩
  · exact (hall kept [] hkept).2 wide [] tokens hwide hrespaced hrun htexts
  · have hsingle := (hspaces _ tokens hrun).2
    rwa [htexts] at hsingle
  · have htouch := (hall touching [] htouching).1.1 hrefuted
    exact (apart_cons.1 htouch).1 _ rfl rfl (.sign rfl)

end ExprFront
