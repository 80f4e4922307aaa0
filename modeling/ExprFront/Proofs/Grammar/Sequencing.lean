import ExprFront.Program
import ExprFront.Proofs.Grammar.Limit
import ExprFront.Proofs.Parse.Relabelling
import ExprFront.Proofs.Tree.Concrete

/-!
# Programs in sequence and in braces

Two programs with a semicolon between them are the program of all their expressions, and where the
second is none the fault is its own. A program in braces is one expression. Both hold for texts too,
since a semicolon and braces are tokens wherever they stand.
-/

namespace ExprFront

open Parse

/-! ## Statements in front of others -/

/-- Statements with some more expressions in front of them. -/
def Parse.prepended (front : List Node) (p : Parse (List Node × Node)) :
    Parse (List Node × Node) := do
  let (es, last) ← p
  pure (front ++ es, last)

theorem Parse.prepended_apply (front : List Node) (p : Parse (List Node × Node)) (c : Cursor) :
    prepended front p c = match p c with
      | .ok (es, last) c' => .ok (front ++ es, last) c'
      | .error e c' => .error e c' := by
  show (p >>= fun s => _) c = _
  rw [bind_apply]
  cases p c <;> rfl

theorem Parse.prepended_prepended (front front' : List Node) (p : Parse (List Node × Node)) :
    prepended front (prepended front' p) = prepended (front ++ front') p := by
  funext c
  simp only [prepended_apply]
  cases p c with
  | error e c' => rfl
  | ok s c' => simp

/-- The tokens are read as statements, and with a semicolon behind them they lead to the statements
behind it. -/
def LeadsOn (n : Nat) (tokens : List Token) (exprs : List Node) (last : Node) : Prop :=
  ReadsStatementsWithin n tokens exprs last ∧
    ∀ s next, s.kind = .semicolon →
      Passes n (fun room => statements (primary room))
        (fun room => prepended (exprs ++ [last]) (statements (primary room))) (tokens ++ [s]) next

theorem ReadsWithin.leadsOn {n : Nat} {tokens : List Token} {isOpen : Bool} {e : Node}
    (h : ReadsWithin n tokens 1 isOpen e) : LeadsOn n tokens [] e :=
  ⟨h.last, fun _ next hs => h.semicolon hs next⟩

theorem LeadsOn.cons {n nRest : Nat} {ts us : List Token} {t : Token} {isOpen : Bool} {e : Node}
    {exprs : List Node} {last : Node} (hfirst : ReadsWithin n ts 1 isOpen e)
    (ht : t.kind = .semicolon) (h : LeadsOn nRest us exprs last) :
    LeadsOn (max n nRest) (ts ++ t :: us) (e :: exprs) last := by
  refine ⟨h.1.cons hfirst ht, fun s next hs => ?_⟩
  rw [show ts ++ t :: us ++ [s] = (ts ++ [t]) ++ (us ++ [s]) by simp]
  have hrest : Passes (max n nRest) (fun room => statements (primary room))
      (fun room => prepended [e] (prepended (exprs ++ [last]) (statements (primary room))))
      ((ts ++ [t]) ++ (us ++ [s])) next :=
    (hfirst.semicolon ht _).trans (h.2 s next hs).andThen
  simpa only [prepended_prepended, List.cons_append, List.nil_append] using hrest

/-- Whatever statements nest, a semicolon and more statements can follow. -/
theorem Nests.leadsOn {tokens : List Token} {phrase : Phrase} {n : Nat}
    (h : Nests tokens phrase n) : ∀ exprs last, phrase = .statements exprs last →
      ∃ exprs' last', Node.unplacedAll exprs' = Node.unplacedAll exprs ∧
        last'.unplaced = last.unplaced ∧ LeadsOn n tokens exprs' last' := by
  induction h with
  | last he ih =>
    rintro _ _ ⟨⟩
    obtain ⟨e', he', _, hread, _⟩ := he.isReadWithin
    exact ⟨[], e', rfl, he', hread.leadsOn⟩
  | semicolon he hs hrest ih ihrest =>
    rintro _ _ ⟨⟩
    obtain ⟨e', he', _, hread, _⟩ := he.isReadWithin
    obtain ⟨exprs', last', hexprs, hlast, hleads⟩ := ihrest _ _ rfl
    exact ⟨e' :: exprs', last', by simp only [Node.unplacedAll, he', hexprs], hlast,
      hleads.cons hread hs⟩
  | _ => rintro _ _ ⟨⟩

/-! ## Parsing -/

section

variable {d : Int} {tokens tokens' : List Token} {s l b : Token} {p q : Position}
  {exprs exprs' : List Node} {last last' tree : Node} {e : ParseError}

/-- A parse succeeds where the statements do and leave nothing over. -/
theorem parse_eq_ok_iff : parse d tokens = .ok tree ↔ ∃ exprs last c,
    statements (primary d.toNat) (.ofTokens tokens) = .ok (exprs, last) c ∧ c.ahead = [] ∧
      tree = .block ((Cursor.ofTokens tokens).current?.elim .nowhere Token.position) exprs last := by
  rw [parse_eq, program_apply]
  constructor
  · intro h
    cases hrun : statements (primary d.toNat) (.ofTokens tokens) with
    | error e c => simp [hrun] at h
    | ok s c =>
      obtain ⟨exprs, last⟩ := s
      cases hc : c.ahead with
      | cons t rest => simp [hrun, hc] at h
      | nil =>
        simp only [hrun, hc, Except.ok.injEq] at h
        exact ⟨exprs, last, c, rfl, hc, h.symm⟩
  · rintro ⟨exprs, last, c, hrun, hc, rfl⟩
    simp only [hrun, hc]

/-- A parse fails where the statements do, or else at the first token that they leave over. -/
theorem parse_eq_error_iff : parse d tokens = .error e ↔ ∃ c,
    statements (primary d.toNat) (.ofTokens tokens) = .error e c ∨
      ∃ es t rest, statements (primary d.toNat) (.ofTokens tokens) = .ok es c ∧
        c.ahead = t :: rest ∧ e = .unexpectedToken t TokenKind.continuation := by
  rw [parse_eq, program_apply]
  constructor
  · intro h
    cases hrun : statements (primary d.toNat) (.ofTokens tokens) with
    | error e' c =>
      simp only [hrun, Except.error.injEq] at h
      exact ⟨c, .inl (by rw [h])⟩
    | ok s c =>
      obtain ⟨exprs, last⟩ := s
      cases hc : c.ahead with
      | nil => simp [hrun, hc] at h
      | cons t rest =>
        simp only [hrun, hc, Except.error.injEq] at h
        exact ⟨c, .inr ⟨_, t, rest, rfl, hc, h.symm⟩⟩
  · rintro ⟨c, hrun | ⟨⟨exprs, last⟩, t, rest, hrun, hc, rfl⟩⟩
    · simp only [hrun]
    · simp only [hrun, hc]

/-- A program and a semicolon lead a parse to the statements behind them. -/
theorem statements_semicolon (h : parse d tokens = .ok (.block p exprs last))
    (hs : s.kind = .semicolon) (rest : List Token) :
    statements (primary d.toNat) (.ofTokens (tokens ++ s :: rest)) =
        prepended (exprs ++ [last]) (statements (primary d.toNat))
          ((Cursor.ofTokens (tokens ++ s :: rest)).over (tokens ++ [s]) rest) ∧
      (Cursor.ofTokens (tokens ++ s :: rest)).current?.elim .nowhere Token.position = p := by
  obtain ⟨_, _, _, hblock, hderives⟩ := isProgram_of_parse h
  cases hblock
  obtain ⟨n, hnests⟩ := hderives.exists_nests
  obtain ⟨exprs', last', -, -, hreads, hleads⟩ := hnests.leadsOn _ _ rfl
  have hpos : 0 < n := hnests.pos (by rintro args ⟨⟩)
  have hn := hnests.le_of_parse h
  -- alone, the tokens are read as the same statements
  have hsame := (hreads.parse hpos d).1 hn
  rw [h, Except.ok.injEq, Node.block.injEq] at hsame
  obtain ⟨rfl, rfl, rfl⟩ := hsame
  refine ⟨(hleads s rest.head? hs d.toNat _ rest (by simp [Cursor.ofTokens]) rfl).1 (by omega), ?_⟩
  obtain ⟨t, more, rfl⟩ := List.exists_cons_of_length_pos (Nat.lt_of_lt_of_le hpos hnests.le_length)
  rfl

variable (r : Relabelling)

/-- Behind a program and a semicolon, exchanged tokens are read as they are alone. -/
theorem carries_statements (s : Token) (tokens tokens' : List Token) (room : Nat) :
    Carries r (tokens ++ [s]).reverse (fun (es, e) => (Node.relabelAll r es, e.relabel r))
      (statements (primary room) (.ofTokens tokens'))
      (statements (primary room)
        ((Cursor.ofTokens (tokens ++ s :: tokens'.map r.token)).over (tokens ++ [s])
          (tokens'.map r.token))) := by
  have hcursor : (Cursor.ofTokens (tokens ++ s :: tokens'.map r.token)).over (tokens ++ [s])
      (tokens'.map r.token) = (Cursor.ofTokens tokens').relabel r (tokens ++ [s]).reverse := by
    simp [Cursor.over, Cursor.ofTokens, Cursor.relabel]
  rw [hcursor]
  exact Mirrors.statements (Mirrors.primary r _ room) _

/-- Two programs with a semicolon between them are one, of all their expressions. -/
theorem parse_semicolon (h : parse d tokens = .ok (.block p exprs last)) (hs : s.kind = .semicolon)
    (h' : parse d tokens' = .ok (.block q exprs' last')) :
    parse d (tokens ++ s :: tokens'.map r.token) =
      .ok (.block p (exprs ++ last :: Node.relabelAll r exprs') (last'.relabel r)) := by
  obtain ⟨hrun, rfl⟩ := statements_semicolon h hs (tokens'.map r.token)
  obtain ⟨_, _, c, hrun', hc, hblock⟩ := parse_eq_ok_iff.1 h'
  cases hblock
  have hcarries := carries_statements r s tokens tokens' d.toNat
  rw [hrun'] at hcarries
  rw [prepended_apply, hcarries.of_ok] at hrun
  exact parse_eq_ok_iff.2 ⟨_, _, _, hrun, by simp [Cursor.relabel, hc], by simp⟩

/-- What is no program fails behind a program and a semicolon as it does alone. -/
theorem parse_semicolon_error (h : parse d tokens = .ok (.block p exprs last))
    (hs : s.kind = .semicolon) (h' : parse d tokens' = .error e) :
    ∃ e', parse d (tokens ++ s :: tokens'.map r.token) = .error e' ∧ e.Corresponds r e' := by
  obtain ⟨hrun, -⟩ := statements_semicolon h hs (tokens'.map r.token)
  have hcarries := carries_statements r s tokens tokens' d.toNat
  rw [prepended_apply] at hrun
  obtain ⟨c, hrun' | ⟨es, t, rest, hrun', hc, rfl⟩⟩ := parse_eq_error_iff.1 h'
  · rw [hrun'] at hcarries
    obtain ⟨e', hresult, he⟩ := hcarries.of_error
    rw [hresult] at hrun
    exact ⟨e', parse_eq_error_iff.2 ⟨_, .inl hrun⟩, he⟩
  -- the token left over alone is left over here
  · rw [hrun'] at hcarries
    rw [hcarries.of_ok] at hrun
    refine ⟨.unexpectedToken (r.token t) TokenKind.continuation, ?_, rfl, rfl, rfl⟩
    exact parse_eq_error_iff.2 ⟨_, .inr ⟨_, r.token t, rest.map r.token, hrun,
      by simp [Cursor.relabel, hc], rfl⟩⟩

/-- A program in braces is one expression, which takes one level of nesting more. -/
theorem parse_braces (h : parse d tokens = .ok tree) (hl : l.kind = .leftBrace)
    (hb : b.kind = .rightBrace) (hpayload : ∀ payload, r.payload payload = payload) :
    ∃ tree', parse (d + 1) (l :: (tokens.map r.token ++ [b])) = .ok tree' ∧
      tree'.unplaced = (Node.block .first [] tree).unplaced := by
  obtain ⟨exprs, last, c, hrun, hc, rfl⟩ := parse_eq_ok_iff.1 h
  have hcarries : Carries r [] _ _ (statements (primary d.toNat) _) :=
    Mirrors.statements (Mirrors.primary r [] d.toNat) (.ofTokens tokens)
  rw [hrun, show (Cursor.ofTokens tokens).relabel r [] = .ofTokens (tokens.map r.token) from rfl]
    at hcarries
  have hparse : parse d (tokens.map r.token) = .ok _ :=
    parse_eq_ok_iff.2 ⟨_, _, _, hcarries.of_ok, by simp [Cursor.relabel, hc], rfl⟩
  obtain ⟨_, _, _, hblock, hderives⟩ := isProgram_of_parse hparse
  cases hblock
  obtain ⟨n, hnests⟩ := hderives.exists_nests
  have hn := hnests.le_of_parse hparse
  have hbraces := ((Nests.block .first hl hnests hb).loosen (Nat.le_refl 1) (by decide)).last
  obtain ⟨tree', htree', hlimit⟩ := hbraces.exists_parse
  refine ⟨tree', (hlimit (d + 1)).1 (by omega), htree'.trans ?_⟩
  simp only [Node.unplaced, Node.unplacedAll, Node.unplacedAll_relabelAll hpayload,
    Node.unplaced_relabel hpayload]

end

/-! ## Texts -/

/-- The tokens of a text that comes to stand behind an origin. -/
def Place.relabelling (origin : Place) : Relabelling where
  token := Token.movedTo origin
  position := origin.position.movedTo
  payload := id
  kind_token _ := rfl
  position_token _ := rfl
  payload_token _ := rfl

section

variable {a b text : List Char} {tokens tokens' : List Token} {exprs exprs' : List Node}
  {last last' tree : Node} {p q : Position} {e : ParseError} {tabSize d : Int}

theorem parseText_of_tokenize (h : tokenize Scanner.defaultTabSize text = .ok tokens) :
    parseText text = (parse defaultMaxDepth tokens).mapError ProgramError.parsing := by
  unfold parseText
  rw [h]
  dsimp only
  cases parse defaultMaxDepth tokens <;> rfl

/-- The tree of a text is that of its tokens. -/
theorem exists_tokens_of_parseText (h : parseText text = .ok tree) :
    ∃ tokens, tokenize Scanner.defaultTabSize text = .ok tokens ∧
      parse defaultMaxDepth tokens = .ok tree := by
  unfold parseText at h
  split at h
  · cases h
  · rename_i tokens htokens
    split at h <;> cases h
    exact ⟨tokens, htokens, by assumption⟩

theorem tokenize_semicolon (ha : tokenize tabSize a = .ok tokens)
    (hb : tokenize tabSize b = .ok tokens') :
    ∃ s, s.kind = .semicolon ∧ tokenize tabSize (a ++ ';' :: b) =
      .ok (tokens ++ s :: tokens'.map (Place.first.after tabSize (a ++ [';'])).relabelling.token) :=
  ⟨_, rfl, tokenize_append rfl ha hb⟩

theorem tokenize_braces (ha : tokenize tabSize a = .ok tokens) :
    ∃ l r, l.kind = .leftBrace ∧ r.kind = .rightBrace ∧ tokenize tabSize ('{' :: (a ++ ['}'])) =
      .ok (l :: (tokens.map (Place.first.after tabSize ['{']).relabelling.token ++ [r])) := by
  have hnil : tokenize tabSize [] = .ok [] := rfl
  have hclosed := tokenize_append (c := '}') rfl ha hnil
  have hopened := tokenize_append (c := '{') rfl hnil hclosed
  rw [List.map_append] at hopened
  exact ⟨_, _, rfl, rfl, hopened⟩

/-- Two programs with a semicolon between them are a program of all their expressions. -/
theorem exists_parseText_semicolon (ha : parseText a = .ok (.block p exprs last))
    (hb : parseText b = .ok (.block q exprs' last')) :
    ∃ tree, parseText (a ++ ';' :: b) = .ok tree ∧
      tree.equals (.block p (exprs ++ [last] ++ exprs') last') = true := by
  obtain ⟨tokens, htokens, hparse⟩ := exists_tokens_of_parseText ha
  obtain ⟨tokens', htokens', hparse'⟩ := exists_tokens_of_parseText hb
  obtain ⟨s, hs, hjoined⟩ := tokenize_semicolon htokens htokens'
  have hwhole := (parseText_of_tokenize hjoined).trans
    (congrArg _ (parse_semicolon _ hparse hs hparse'))
  refine ⟨_, hwhole, Node.equals_of_unplaced_eq ?_ ?_⟩
  · simp [Node.unplaced, Node.unplacedAll_append, Node.unplacedAll, Node.unplaced_relabel,
      Node.unplacedAll_relabelAll, Place.relabelling]
  -- the trees of both texts are concrete, and so is what is put together from them
  · have hfirst := parse_isConcrete htokens hparse
    have hsecond := parse_isConcrete htokens' hparse'
    simp only [Node.isConcrete, Bool.and_eq_true] at hfirst hsecond
    simp [Node.isConcrete, Node.isConcreteAll_append, Node.isConcreteAll, hfirst, hsecond]

/-- Tokens that are no program fail behind a program and a semicolon as they do alone. -/
theorem exists_parseText_semicolon_error (ha : parseText a = .ok tree)
    (hb : tokenize Scanner.defaultTabSize b = .ok tokens)
    (he : parse defaultMaxDepth tokens = .error e) :
    ∃ before e', parseText (a ++ ';' :: b) = .error (.parsing e') ∧ e'.kindName = e.kindName ∧
      e'.expected = e.expected ∧
      let origin := Place.first.after Scanner.defaultTabSize (a ++ [';'])
      tokenize Scanner.defaultTabSize (a ++ ';' :: b) =
        .ok (before ++ tokens.map (·.movedTo origin)) ∧
      e'.token? = e.token?.map (·.movedTo origin) := by
  obtain ⟨front, hfront, hparse⟩ := exists_tokens_of_parseText ha
  obtain ⟨p, exprs, last, rfl, -⟩ := isProgram_of_parse hparse
  obtain ⟨s, hs, hjoined⟩ := tokenize_semicolon hfront hb
  obtain ⟨e', hparse', hkind, hexpected, htoken⟩ := parse_semicolon_error
    (Place.first.after Scanner.defaultTabSize (a ++ [';'])).relabelling hparse hs he
  refine ⟨front ++ [s], e', ?_, hkind, hexpected, ?_, htoken⟩
  · rw [parseText_of_tokenize hjoined, hparse']
    rfl
  · rw [hjoined, List.append_assoc]
    rfl

/-- A program in braces is one expression, under a limit of one more. -/
theorem exists_parse_braces (ha : tokenize tabSize a = .ok tokens)
    (hparse : parse d tokens = .ok tree) :
    ∃ tokens' tree', tokenize tabSize ('{' :: (a ++ ['}'])) = .ok tokens' ∧
      parse (d + 1) tokens' = .ok tree' ∧ tree'.equals (.block .first [] tree) = true := by
  obtain ⟨l, r, hl, hr, htokens⟩ := tokenize_braces ha
  obtain ⟨tree', hparse', hplaced⟩ := parse_braces
    (Place.first.after tabSize ['{']).relabelling hparse hl hr fun _ => rfl
  refine ⟨_, tree', htokens, hparse', Node.equals_of_unplaced_eq hplaced ?_⟩
  simp [Node.isConcrete, Node.isConcreteAll, parse_isConcrete ha hparse]

end

/-- Texts of programs compose. With a semicolon between them, two are a program of all their
expressions. If the second has tokens but is none, the two fail as the second does alone: with an
error of the same kind that expects the same, at the same token where it has come to stand. And under
any limit of nesting, a program in braces is one expression under a limit of one more. -/
theorem parseText_compose (a b : List Char) :
    (∀ p exprs last q exprs' last', parseText a = .ok (.block p exprs last) →
      parseText b = .ok (.block q exprs' last') →
      ∃ tree, parseText (a ++ ';' :: b) = .ok tree ∧
        tree.equals (.block p (exprs ++ [last] ++ exprs') last') = true) ∧
    (∀ tree tokens e, parseText a = .ok tree → tokenize Scanner.defaultTabSize b = .ok tokens →
      parse defaultMaxDepth tokens = .error e →
      ∃ before e', parseText (a ++ ';' :: b) = .error (.parsing e') ∧
        e'.kindName = e.kindName ∧ e'.expected = e.expected ∧
        let origin := Place.first.after Scanner.defaultTabSize (a ++ [';'])
        tokenize Scanner.defaultTabSize (a ++ ';' :: b) =
          .ok (before ++ tokens.map (·.movedTo origin)) ∧
        e'.token? = e.token?.map (·.movedTo origin)) ∧
    ∀ (tabSize d : Int) tokens tree, tokenize tabSize a = .ok tokens → parse d tokens = .ok tree →
      ∃ tokens' tree', tokenize tabSize ('{' :: (a ++ ['}'])) = .ok tokens' ∧
        parse (d + 1) tokens' = .ok tree' ∧ tree'.equals (.block .first [] tree) = true :=
  ⟨fun _ _ _ _ _ _ => exists_parseText_semicolon, fun _ _ _ => exists_parseText_semicolon_error,
    fun _ _ _ _ => exists_parse_braces⟩

/-- Two names in sequence, a name before a parenthesis that closes nothing, and a name in braces. -/
theorem parseText_compose_names :
    let x : Node := .var .first (.text "x")
    let y : Node := .var .first (.text "y")
    (∃ tree, parseText ['x', ';', 'y'] = .ok tree ∧
      tree.equals (.block .first [x] y) = true) ∧
    (∃ e, parseText ['x', ';', ')'] = .error (.parsing e) ∧ e.kindName = "UNEXPECTED_TOKEN" ∧
      e.expected = TokenKind.primaryStart ∧ e.token?.map Token.start = some 2) ∧
    ∃ tokens tree, tokenize 4 ['{', 'x', '}'] = .ok tokens ∧ parse 2 tokens = .ok tree ∧
      tree.equals (.block .first [] (.block .first [] x)) = true := by
  intro x y
  have hx : tokenize 4 ['x'] = .ok [Place.first.token .identifier (.text "x") ['x']] := by
    decide +kernel
  have hy : tokenize 4 ['y'] = .ok [Place.first.token .identifier (.text "y") ['y']] := by
    decide +kernel
  have hparen : tokenize 4 [')'] = .ok [Place.first.token .rightParen .absent [')']] := by
    decide +kernel
  have hparseX : parseText ['x'] = .ok (.block .first [] x) := (parseText_of_tokenize hx).trans rfl
  have hparseY : parseText ['y'] = .ok (.block .first [] y) := (parseText_of_tokenize hy).trans rfl
  obtain ⟨hsequence, -, hbraces⟩ := parseText_compose ['x'] ['y']
  obtain ⟨-, hfault, -⟩ := parseText_compose ['x'] [')']
  refine ⟨hsequence _ _ _ _ _ _ hparseX hparseY, ?_, hbraces 4 1 _ _ hx rfl⟩
  obtain ⟨before, e, hrun, hkind, hexpected, -, htoken⟩ := hfault _ _ _ hparseX hparen rfl
  exact ⟨e, hrun, hkind, hexpected, by rw [htoken]; rfl⟩

end ExprFront
