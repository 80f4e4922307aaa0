import Mathlib.Data.List.OfFn
import ExprFront.Proofs.Grammar.Exact
import ExprFront.Proofs.Parse.Calls
import ExprFront.Proofs.Parse.Relabelling
import ExprFront.Proofs.Tree.Sketch

/-!
# Parsing by kinds

The kinds of tokens alone decide what a parse gives: a tree up to what its nodes take from the
tokens, or an error up to its token, and where the parse ends. To see from which token each part of
a tree is taken, tokens of the kinds are numbered: each shows its place in the row as its position
and as its payload. The numbered tokens are then exchanged for others.
-/

namespace ExprFront

open Parse

/-! ## Numbered tokens -/

section

variable {n : Nat}

/-- A place in a row of at least one token, counted on from the first behind the last. -/
def placeOf (count : Nat) : Fin (n + 1) :=
  ⟨count % (n + 1), Nat.mod_lt count (Nat.succ_pos n)⟩

/-- The place that the position of a numbered token shows. -/
def Position.place (p : Position) : Fin (n + 1) :=
  placeOf p.line.toNat

/-- The place that the payload of a numbered token shows. -/
def Payload.place : Payload → Fin (n + 1)
  | .text name => placeOf name.length
  | _ => placeOf 0

theorem placeOf_val (i : Fin (n + 1)) : placeOf i.val = i :=
  Fin.ext (Nat.mod_eq_of_lt i.isLt)

/-- A token that shows its place as its position and as its payload. -/
def Token.numbered (kind : TokenKind) (i : Fin (n + 1)) : Token :=
  { Token.bare kind (.text (String.ofList (List.replicate i 'x'))) with position := ⟨i, 0⟩ }

@[simp] theorem Token.place_position_numbered (kind : TokenKind) (i : Fin (n + 1)) :
    (Token.numbered kind i).position.place = i :=
  placeOf_val i

@[simp] theorem Token.place_payload_numbered (kind : TokenKind) (i : Fin (n + 1)) :
    (Token.numbered kind i).payload.place = i := by
  simp [numbered, Payload.place, bare, cut, placeOf_val]

/-- Exchanges numbered tokens for those at their places. -/
def Relabelling.ofPlaces (tokens : Fin (n + 1) → Token) : Relabelling where
  token t :=
    { tokens t.position.place with kind := t.kind, payload := (tokens t.payload.place).payload }
  position p := (tokens p.place).position
  payload value := (tokens value.place).payload
  kind_token _ := rfl
  position_token _ := rfl
  payload_token _ := rfl

theorem Relabelling.ofPlaces_numbered {tokens : Fin (n + 1) → Token} {kind : TokenKind}
    {i : Fin (n + 1)} (h : (tokens i).kind = kind) :
    (ofPlaces tokens).token (.numbered kind i) = tokens i := by
  simp only [ofPlaces, Token.place_position_numbered, Token.place_payload_numbered, ← h]
  rfl

/-- A row of numbered tokens, of these kinds. -/
def Token.numberedAll (kinds : Fin (n + 1) → TokenKind) (i : Fin (n + 1)) : Token :=
  .numbered (kinds i) i

/-- Numbered tokens can be exchanged for any tokens of their kinds. -/
theorem Relabelling.ofPlaces_numberedAll {tokens : Fin (n + 1) → Token}
    {kinds : Fin (n + 1) → TokenKind} (h : ∀ i, (tokens i).kind = kinds i) :
    (ofPlaces tokens).token ∘ Token.numberedAll kinds = tokens :=
  funext fun i => ofPlaces_numbered (h i)

namespace Node

mutual

/-- The sketch with the places that a tree of numbered tokens shows. -/
def sketch : Node → Sketch (Fin (n + 1))
  | .anyNode p => .anyNode p.place
  | .anyExpression p => .anyExpression p.place
  | .number p value => .number p.place value.place
  | .bool p value => .bool p.place value
  | .var p name => .var p.place name.place
  | .userVar p name => .userVar p.place name.place
  | .block p exprs ret => .block p.place (sketchAll exprs) (sketch ret)
  | .ifElse p cond yes no => .ifElse p.place (sketch cond) (sketch yes) (sketch no)
  | .call p name args => .call p.place name.place (sketchAll args)
  | .assign p name value => .assign p.place name.place (sketch value)
  | .mathAssign p op name value => .mathAssign p.place op name.place (sketch value)
  | .negate p operand => .negate p.place (sketch operand)
  | .not p operand => .not p.place (sketch operand)
  | .math p op left right => .math p.place op (sketch left) (sketch right)
  | .compare p op left right => .compare p.place op (sketch left) (sketch right)

/-- The sketches of trees of numbered tokens. -/
def sketchAll : List Node → List (Sketch (Fin (n + 1)))
  | [] => []
  | node :: rest => sketch node :: sketchAll rest

end

mutual

/-- Exchanging the tokens of a tree fills its sketch in. -/
theorem fill_sketch (tokens : Fin (n + 1) → Token) (node : Node) :
    node.sketch.fill tokens = node.relabel (.ofPlaces tokens) := by
  cases node <;>
    simp only [sketch, Sketch.fill, relabel, fill_sketch tokens, fillAll_sketchAll tokens] <;> rfl

theorem fillAll_sketchAll (tokens : Fin (n + 1) → Token) (nodes : List Node) :
    Sketch.fillAll tokens (sketchAll nodes) = relabelAll (.ofPlaces tokens) nodes := by
  cases nodes with
  | nil => rfl
  | cons node rest =>
    simp only [sketchAll, Sketch.fillAll, relabelAll, fill_sketch tokens, fillAll_sketchAll tokens]

end

end Node

end

/-! ## Programs -/

/-- A program is read alike from exchanged tokens, if there are any. -/
theorem Parse.carries_program (r : Relabelling) (before : List Token) (room : Nat) {c : Cursor}
    (hc : c.ahead ≠ []) :
    Carries r before (Node.relabel r) (program (primary room) c)
      (program (primary room) (c.relabel r before)) := by
  have hstatements := (Mirrors.primary r before room).statements c
  rw [program_apply, program_apply]
  cases hrun : statements (primary room) c with
  | error e c' =>
    rw [hrun] at hstatements
    obtain ⟨e', hrun', he⟩ := hstatements.of_error
    rw [hrun']
    exact ⟨he, rfl⟩
  | ok s c' =>
    rw [hrun] at hstatements
    rw [hstatements.of_ok]
    obtain ⟨t, rest, hahead⟩ := List.exists_cons_of_ne_nil hc
    cases hleft : c'.ahead with
    | nil =>
      have hleft' : (c'.relabel r before).ahead = [] := by simp [Cursor.relabel, hleft]
      simp only [hleft, hleft']
      refine ⟨?_, rfl⟩
      simp [Node.relabel, Cursor.current?, Cursor.relabel, hahead]
    | cons u more =>
      have hleft' : (c'.relabel r before).ahead = r.token u :: more.map r.token := by
        simp [Cursor.relabel, hleft]
      simp only [hleft, hleft']
      exact ⟨⟨rfl, rfl, rfl⟩, rfl⟩

/-! ## Verdicts -/

/-- What a parse gives as far as the kinds of the tokens decide it: a sketch of the tree, or the kind
of the error, what it expects and the place of its token; and where the parse ends, with how many
primary expressions open. -/
inductive Verdict (n : Nat) where
  | tree (sketch : Sketch (Fin n)) (index depth : Nat)
  | fault (kindName : String) (expected : List TokenKind) (place? : Option (Fin n))
      (index depth : Nat)

/-- The outcome for these tokens is the one that the verdict tells. -/
def Verdict.Describes {n : Nat} (tokens : Fin n → Token) :
    Verdict n → EStateM.Result ParseError Cursor Node → Prop
  | .tree sketch index depth, .ok node c =>
    node = sketch.fill tokens ∧ c.index = index ∧ c.depth = depth
  | .fault kindName expected place? index depth, .error e c =>
    e.kindName = kindName ∧ e.expected = expected ∧ e.token? = place?.map tokens ∧
      c.index = index ∧ c.depth = depth
  | _, _ => False

/-- What a caller meets is the outcome that the verdict tells, except that an error whose position
cannot be written leaves no more than that and the cursor where it came about. -/
def Verdict.Reaches {n : Nat} (tokens : Fin n → Token) (verdict : Verdict n) :
    EStateM.Result ParseFailure Cursor Node → Prop
  | .ok node c => verdict.Describes tokens (.ok node c)
  | .error (.error e) c =>
    verdict.Describes tokens (.error e c) ∧ e.position.isWritable = true
  | .error .unwritable c =>
    ∃ e, verdict.Describes tokens (.error e c) ∧ e.position.isWritable = false

section

variable {n : Nat} {maxDepth : Int} {tokens : Fin n → Token}

theorem Verdict.Describes.exists_of_ok {verdict : Verdict n} {tree : Node} {c : Cursor}
    (h : verdict.Describes tokens (.ok tree c)) :
    ∃ sketch, verdict = .tree sketch c.index c.depth ∧ tree = sketch.fill tokens := by
  cases verdict with
  | tree sketch index depth =>
    obtain ⟨rfl, rfl, rfl⟩ := h
    exact ⟨sketch, rfl, rfl⟩
  | fault => exact h.elim

theorem Verdict.Describes.eq_ok {sketch : Sketch (Fin n)} {index depth : Nat}
    {r : EStateM.Result ParseError Cursor Node}
    (h : (Verdict.tree sketch index depth).Describes tokens r) :
    ∃ c, r = .ok (sketch.fill tokens) c := by
  cases r with
  | ok tree c => exact ⟨c, congrArg (EStateM.Result.ok · c) h.1⟩
  | error e c => exact h.elim

/-- A verdict on a step is one on what its caller meets. -/
theorem Verdict.Describes.reaches {verdict : Verdict n} {step : Parse Node} {c : Cursor}
    (h : verdict.Describes tokens (step c)) : verdict.Reaches tokens (raising step c) := by
  unfold raising
  cases hrun : step c with
  | ok tree c' =>
    rw [hrun] at h
    exact h
  | error e c' =>
    rw [hrun] at h
    cases hwritable : e.position.isWritable with
    | true =>
      simp only [ParseError.raised_of_isWritable hwritable]
      exact ⟨h, hwritable⟩
    | false =>
      simp only [ParseError.raised, hwritable]
      exact ⟨e, h, hwritable⟩

/-- A program of numbered tokens shows how any tokens of their kinds are read. -/
theorem carries_numberedAll (maxDepth : Int) {tokens : Fin (n + 1) → Token}
    {kinds : Fin (n + 1) → TokenKind} (h : ∀ i, (tokens i).kind = kinds i) :
    Carries (.ofPlaces tokens) [] (Node.relabel (.ofPlaces tokens))
      (within maxDepth program (.ofTokens (List.ofFn (Token.numberedAll kinds))))
      (within maxDepth program (.ofTokens (List.ofFn tokens))) := by
  have hexchanged : Cursor.ofTokens (List.ofFn tokens) =
      (Cursor.ofTokens (List.ofFn (Token.numberedAll kinds))).relabel (.ofPlaces tokens) [] := by
    rw [Cursor.relabel, Cursor.ofTokens, Cursor.ofTokens, List.map_ofFn,
      Relabelling.ofPlaces_numberedAll h]
    rfl
  rw [hexchanged]
  exact carries_program _ _ _ (by simp [Cursor.ofTokens])

/-- A token at fault among numbered ones has a place. -/
theorem exists_place_of_error {kinds : Fin (n + 1) → TokenKind} {e : ParseError} {c : Cursor}
    (h : within maxDepth program (.ofTokens (List.ofFn (Token.numberedAll kinds))) = .error e c) :
    ∃ place? : Option (Fin (n + 1)), e.token? = place?.map (Token.numberedAll kinds) := by
  cases htoken : e.token? with
  | none => exact ⟨none, rfl⟩
  | some t =>
    have hmem : t ∈ List.ofFn (Token.numberedAll kinds) := mem_tokens_of_error h htoken
    obtain ⟨i, rfl⟩ := List.mem_ofFn.1 hmem
    exact ⟨some i, rfl⟩

/-- A verdict on numbered tokens is one on all tokens of their kinds. -/
theorem exists_verdict (maxDepth : Int) (kinds : Fin n → TokenKind) :
    ∃ verdict : Verdict n, ∀ tokens : Fin n → Token, (∀ i, (tokens i).kind = kinds i) →
      verdict.Describes tokens (within maxDepth program (.ofTokens (List.ofFn tokens))) := by
  cases n with
  | zero =>
    refine ⟨.fault "UNEXPECTED_EOF" TokenKind.primaryStart none 0 0, fun tokens _ => ?_⟩
    rw [List.ofFn_zero, within_apply]
    cases (Cursor.ofTokens []).room maxDepth <;> exact ⟨rfl, rfl, rfl, rfl, rfl⟩
  | succ n =>
    cases hrun : within maxDepth program (.ofTokens (List.ofFn (Token.numberedAll kinds))) with
    | ok tree c =>
      refine ⟨.tree tree.sketch c.index c.depth, fun tokens hkinds => ?_⟩
      have hresult := carries_numberedAll maxDepth hkinds
      rw [hrun] at hresult
      rw [hresult.of_ok]
      exact ⟨(Node.fill_sketch tokens tree).symm, by simp [Cursor.index, Cursor.relabel], rfl⟩
    | error e c =>
      obtain ⟨place?, hplace⟩ := exists_place_of_error hrun
      refine ⟨.fault e.kindName e.expected place? c.index c.depth, fun tokens hkinds => ?_⟩
      have hresult := carries_numberedAll maxDepth hkinds
      rw [hrun] at hresult
      obtain ⟨e', hrun', he⟩ := hresult.of_error
      rw [hrun']
      refine ⟨he.kindName, he.expected, ?_, by simp [Cursor.index, Cursor.relabel], rfl⟩
      rw [he.token, hplace, Option.map_map, Relabelling.ofPlaces_numberedAll hkinds]

/-- Equal rows of tokens have equal tokens at the same places. -/
theorem Token.exists_ofFn_of_equalsAll {ts us : List Token} (h : Token.equalsAll ts us = true) :
    ∃ (n : Nat) (tokens tokens' : Fin n → Token), ts = List.ofFn tokens ∧ us = List.ofFn tokens' ∧
      ∀ i, (tokens i).equals (tokens' i) = true := by
  simp only [equalsAll, Bool.and_eq_true, beq_iff_eq, List.all_eq_true] at h
  obtain ⟨hlength, hequal⟩ := h
  refine ⟨ts.length, ts.get, us.get ∘ Fin.cast hlength, ?_, ?_, fun i => ?_⟩
  · exact (List.ofFn_get ts).symm
  · exact (List.ofFn_get us).symm.trans (List.ofFn_congr hlength.symm us.get)
  · have hmem : (ts.get i, us.get (i.cast hlength)) ∈ ts.zip us := by
      rw [List.mem_iff_get]
      exact ⟨⟨i, by simp [← hlength]⟩, by simp⟩
    exact hequal _ hmem

theorem exists_within_of_parse {ts : List Token} {tree : Node}
    (h : parse maxDepth ts = .ok tree) :
    ∃ c, within maxDepth program (.ofTokens ts) = .ok tree c := by
  unfold parse at h
  cases hrun : within maxDepth program (.ofTokens ts) <;> rw [hrun] at h <;> cases h
  exact ⟨_, rfl⟩

/-- What equal tokens are parsed to is one sketch, filled in twice. -/
theorem exists_parse_of_equalsAll {ts us : List Token} {tree : Node}
    (h : Token.equalsAll ts us = true) (hparse : parse maxDepth ts = .ok tree) :
    ∃ tree', parse maxDepth us = .ok tree' ∧ tree.equals tree' = true := by
  obtain ⟨n, tokens, tokens', rfl, rfl, hequal⟩ := Token.exists_ofFn_of_equalsAll h
  simp only [Token.equals, Bool.and_eq_true, beq_iff_eq] at hequal
  obtain ⟨verdict, hverdict⟩ := exists_verdict maxDepth fun i => (tokens' i).kind
  have hfirst := hverdict tokens fun i => (hequal i).1
  have hsecond := hverdict tokens' fun _ => rfl
  obtain ⟨c, hrun⟩ := exists_within_of_parse hparse
  rw [hrun] at hfirst
  obtain ⟨sketch, rfl, rfl⟩ := hfirst.exists_of_ok
  obtain ⟨c', hrun'⟩ := hsecond.eq_ok
  refine ⟨sketch.fill tokens', ?_, Sketch.equals_fill (fun i => (hequal i).2) sketch⟩
  unfold parse
  rw [hrun']

end

/-- Parsing looks at the kinds of tokens only. For tokens of given kinds and a limit of nesting there
is one verdict, which tells what parsing gives and where it ends whatever else the tokens carry: in
the tree or error, only what comes from the token at some place changes with the token at that place.
What is more, an error whose position cannot be written is not met by the caller. So equal tokens are
parsed to equal trees. -/
theorem parse_kinds (maxDepth : Int) :
    (∀ (n : Nat) (kinds : Fin n → TokenKind), ∃ verdict : Verdict n, ∀ tokens : Fin n → Token,
      (∀ i, (tokens i).kind = kinds i) →
        verdict.Describes tokens (within maxDepth program (.ofTokens (List.ofFn tokens))) ∧
        verdict.Reaches tokens
          (raising (within maxDepth program) (.ofTokens (List.ofFn tokens)))) ∧
    ∀ ts us tree, Token.equalsAll ts us = true → parseTokens maxDepth ts = .ok tree →
      ∃ tree', parseTokens maxDepth us = .ok tree' ∧ tree.equals tree' = true := by
  constructor
  · intro n kinds
    obtain ⟨verdict, hverdict⟩ := exists_verdict maxDepth kinds
    exact ⟨verdict, fun tokens hkinds => ⟨hverdict tokens hkinds, (hverdict tokens hkinds).reaches⟩⟩
  · intro ts us tree hequal hparse
    obtain ⟨tree', hparse', htree⟩ := exists_parse_of_equalsAll hequal (parse_of_parseTokens_ok hparse)
    exact ⟨tree', parseTokens_of_ok hparse', htree⟩

/-- In a negated name another name may stand, and the same name elsewhere makes an equal tree. -/
theorem parse_kinds_negated_name :
    let minus := Token.bare .minus
    let x := Token.bare .identifier (.text "x")
    let y := Token.bare .identifier (.text "y")
    (∃ verdict : Verdict 2,
      verdict.Describes [minus, x].get (within 5 program (.ofTokens [minus, x])) ∧
      verdict.Describes [minus, y].get (within 5 program (.ofTokens [minus, y]))) ∧
    ∃ tree, parseTokens 5 [minus, { x with position := ⟨3, 4⟩ }] = .ok tree ∧
      (Node.block .first [] (.negate .first (.var .first (.text "x")))).equals tree = true := by
  intro minus x y
  obtain ⟨hverdict, hequal⟩ := parse_kinds 5
  refine ⟨?_, hequal [minus, x] _ _ rfl rfl⟩
  obtain ⟨verdict, hdescribes⟩ := hverdict 2 [TokenKind.minus, .identifier].get
  have hx := hdescribes [minus, x].get (Fin.forall_fin_two.2 ⟨rfl, rfl⟩)
  have hy := hdescribes [minus, y].get (Fin.forall_fin_two.2 ⟨rfl, rfl⟩)
  exact ⟨verdict, hx.1, hy.1⟩

/-- A closing parenthesis begins no program wherever it stands, but far to the right the caller meets
no error of parsing. -/
theorem parse_kinds_far :
    let near := Token.bare .rightParen
    let far : Token := { near with position := ⟨1, Position.farColumn⟩ }
    near.kind = far.kind ∧
      parseTokens 5 [near] = .error (.error (.unexpectedToken near TokenKind.primaryStart)) ∧
      parseTokens 5 [far] = .error .unwritable := by
  intro near far
  refine ⟨rfl, ?_, ?_⟩
  · rw [parseTokens_of_error (show parse 5 [near] = .error (.unexpectedToken near _) from rfl)]
    exact congrArg _ (ParseError.raised_of_isWritable (by decide +kernel))
  · rw [parseTokens_of_error (show parse 5 [far] = .error (.unexpectedToken far _) from rfl)]
    exact congrArg _ (ParseError.raised_far rfl)

end ExprFront
