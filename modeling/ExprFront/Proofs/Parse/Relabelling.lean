import ExprFront.Proofs.Parse.Progress
import ExprFront.Proofs.Tree.Unplaced

/-!
# Exchanging tokens

Parsing looks at the kinds of tokens only. If tokens are exchanged for others of the same kinds, with
their positions and payloads exchanged alike, each step does the same and its result is exchanged in
the same way: a tree has the new positions and payloads in the places of the old, and an error the
new token for the old. What has been passed before makes no difference.
-/

namespace ExprFront

/-- A way to exchange tokens for others of the same kinds. -/
structure Relabelling where
  token : Token → Token
  position : Position → Position
  payload : Payload → Payload
  kind_token : ∀ t, (token t).kind = t.kind
  position_token : ∀ t, (token t).position = position t.position
  payload_token : ∀ t, (token t).payload = payload t.payload

attribute [simp] Relabelling.kind_token Relabelling.position_token Relabelling.payload_token

/-! ## Exchanged results -/

namespace Node

mutual

/-- A tree with the positions and payloads of other tokens. -/
def relabel (r : Relabelling) : Node → Node
  | .anyNode p => .anyNode (r.position p)
  | .anyExpression p => .anyExpression (r.position p)
  | .number p value => .number (r.position p) (r.payload value)
  | .bool p value => .bool (r.position p) value
  | .var p name => .var (r.position p) (r.payload name)
  | .userVar p name => .userVar (r.position p) (r.payload name)
  | .block p exprs ret => .block (r.position p) (relabelAll r exprs) (relabel r ret)
  | .ifElse p cond yes no => .ifElse (r.position p) (relabel r cond) (relabel r yes) (relabel r no)
  | .call p name args => .call (r.position p) (r.payload name) (relabelAll r args)
  | .assign p name value => .assign (r.position p) (r.payload name) (relabel r value)
  | .mathAssign p op name value => .mathAssign (r.position p) op (r.payload name) (relabel r value)
  | .negate p operand => .negate (r.position p) (relabel r operand)
  | .not p operand => .not (r.position p) (relabel r operand)
  | .math p op left right => .math (r.position p) op (relabel r left) (relabel r right)
  | .compare p op left right => .compare (r.position p) op (relabel r left) (relabel r right)

/-- Trees with the positions and payloads of other tokens. -/
def relabelAll (r : Relabelling) : List Node → List Node
  | [] => []
  | node :: rest => relabel r node :: relabelAll r rest

end

theorem position_relabel (r : Relabelling) (node : Node) :
    (node.relabel r).position = r.position node.position := by
  cases node <;> simp only [relabel, position]

theorem relabel_binary (r : Relabelling) (p : Position) (op : BinaryOp) (left right : Node) :
    (binary p op left right).relabel r =
      binary (r.position p) op (left.relabel r) (right.relabel r) := by
  cases op <;> simp only [binary, relabel]

mutual

/-- Where the payloads stay, only positions differ. -/
theorem unplaced_relabel {r : Relabelling} (h : ∀ payload, r.payload payload = payload)
    (node : Node) : (node.relabel r).unplaced = node.unplaced := by
  cases node <;> simp only [relabel, unplaced, h, unplaced_relabel h, unplacedAll_relabelAll h]

theorem unplacedAll_relabelAll {r : Relabelling} (h : ∀ payload, r.payload payload = payload)
    (nodes : List Node) : unplacedAll (relabelAll r nodes) = unplacedAll nodes := by
  cases nodes with
  | nil => rfl
  | cons node rest =>
    simp only [relabelAll, unplacedAll, unplaced_relabel h, unplacedAll_relabelAll h]

end

end Node

/-- The errors are of one kind and expect the same, and the token at fault is exchanged. -/
structure ParseError.Corresponds (r : Relabelling) (e e' : ParseError) : Prop where
  kindName : e'.kindName = e.kindName
  expected : e'.expected = e.expected
  token : e'.token? = e.token?.map r.token

/-- A cursor among other tokens, with some more passed before them. -/
def Cursor.relabel (r : Relabelling) (before : List Token) (c : Cursor) : Cursor :=
  { passed := c.passed.map r.token ++ before, ahead := c.ahead.map r.token, depth := c.depth }

namespace Parse

variable {α β : Type}

/-- The second outcome is the first with the tokens exchanged. -/
def Carries (r : Relabelling) (before : List Token) (g : α → α) :
    EStateM.Result ParseError Cursor α → EStateM.Result ParseError Cursor α → Prop
  | .ok a c, .ok a' c' => a' = g a ∧ c' = c.relabel r before
  | .error e c, .error e' c' => e.Corresponds r e' ∧ c' = c.relabel r before
  | _, _ => False

theorem Carries.of_ok {r : Relabelling} {before : List Token} {g : α → α} {a : α} {c : Cursor}
    {result : EStateM.Result ParseError Cursor α} (h : Carries r before g (.ok a c) result) :
    result = .ok (g a) (c.relabel r before) := by
  cases result with
  | ok a' c' =>
    obtain ⟨rfl, rfl⟩ := h
    rfl
  | error e' c' => exact h.elim

theorem Carries.of_error {r : Relabelling} {before : List Token} {g : α → α} {e : ParseError}
    {c : Cursor} {result : EStateM.Result ParseError Cursor α}
    (h : Carries r before g (.error e c) result) :
    ∃ e', result = .error e' (c.relabel r before) ∧ e.Corresponds r e' := by
  cases result with
  | ok a' c' => exact h.elim
  | error e' c' =>
    obtain ⟨he, rfl⟩ := h
    exact ⟨e', rfl, he⟩

/-- The second step does with exchanged tokens what the first does. -/
def Mirrors (r : Relabelling) (before : List Token) (g : α → α) (p p' : Parse α) : Prop :=
  ∀ c, Carries r before g (p c) (p' (c.relabel r before))

section

variable {r : Relabelling} {before : List Token} {g : α → α} {h : β → β}

theorem Mirrors.pure (a : α) : Mirrors r before g (Pure.pure a) (Pure.pure (g a)) :=
  fun _ => ⟨rfl, rfl⟩

theorem Mirrors.throw {e e' : ParseError} (he : e.Corresponds r e') :
    Mirrors r before g (MonadExcept.throw e) (MonadExcept.throw e') :=
  fun _ => ⟨he, rfl⟩

theorem Mirrors.bind {p p' : Parse α} {f f' : α → Parse β} (hp : Mirrors r before g p p')
    (hf : ∀ a, Mirrors r before h (f a) (f' (g a))) :
    Mirrors r before h (p >>= f) (p' >>= f') := by
  intro c
  have hc := hp c
  rw [bind_apply, bind_apply]
  cases hrun : p c <;> cases hrun' : p' (c.relabel r before) <;> rw [hrun, hrun'] at hc
  case ok.ok =>
    obtain ⟨rfl, rfl⟩ := hc
    exact hf _ _
  case error.error => exact hc
  all_goals exact hc.elim

theorem Mirrors.bounded {step step' : List Token → Parse α}
    (hstep : ∀ rounds, Mirrors r before g (step rounds) (step' (rounds.map r.token))) :
    Mirrors r before g (bounded step) (bounded step') :=
  fun c => hstep c.ahead c

theorem Mirrors.nested {p p' : Parse α} (hp : Mirrors r before g p p') :
    Mirrors r before g (nested p) (nested p') := by
  intro c
  have hc : Carries r before g (p { c with depth := c.depth + 1 })
    (p' { c.relabel r before with depth := c.depth + 1 }) := hp { c with depth := c.depth + 1 }
  show Carries r before g (Parse.nested p c) (Parse.nested p' (c.relabel r before))
  unfold Parse.nested
  rw [show (c.relabel r before).depth = c.depth from rfl]
  cases hrun : p { c with depth := c.depth + 1 } <;>
    cases hrun' : p' { c.relabel r before with depth := c.depth + 1 } <;> rw [hrun, hrun'] at hc
  case ok.ok =>
    obtain ⟨rfl, rfl⟩ := hc
    exact ⟨rfl, rfl⟩
  case error.error =>
    obtain ⟨he, rfl⟩ := hc
    exact ⟨he, rfl⟩
  all_goals exact hc.elim

/-! ## Single tokens -/

theorem Mirrors.advance (expected : List TokenKind) :
    Mirrors r before r.token (advance expected) (advance expected) := by
  rintro ⟨passed, ahead, depth⟩
  cases ahead with
  | nil => exact ⟨⟨rfl, rfl, rfl⟩, rfl⟩
  | cons t rest => exact ⟨rfl, rfl⟩

theorem Mirrors.expect (kind : TokenKind) :
    Mirrors r before r.token (expect kind) (expect kind) := by
  refine (Mirrors.advance [kind]).bind fun t => ?_
  rw [r.kind_token]
  split
  · exact .pure t
  · exact .throw ⟨rfl, rfl, rfl⟩

theorem Mirrors.acceptAs {meaning : Token → Option α}
    (hmeaning : ∀ t, meaning (r.token t) = (meaning t).map g) :
    Mirrors r before (Option.map g) (acceptAs meaning) (acceptAs meaning) := by
  rintro ⟨passed, ahead, depth⟩
  cases ahead with
  | nil => exact ⟨rfl, rfl⟩
  | cons t rest =>
    have hmeaning' := hmeaning t
    cases hm : meaning t with
    | none =>
      rw [hm] at hmeaning'
      rw [acceptAs_none rfl hm, acceptAs_none rfl hmeaning']
      exact ⟨rfl, rfl⟩
    | some a =>
      rw [hm] at hmeaning'
      rw [acceptAs_some rfl hm, acceptAs_some rfl hmeaning']
      exact ⟨rfl, rfl⟩

theorem Mirrors.accept (kinds : List TokenKind) :
    Mirrors r before (Option.map r.token) (accept kinds) (accept kinds) := by
  refine Mirrors.acceptAs fun t => ?_
  rw [r.kind_token]
  split <;> rfl

/-- The meaning of an operator is in the kind of its token. -/
theorem Mirrors.acceptAs_kind (meaning : TokenKind → Option α) :
    Mirrors r before id (Parse.acceptAs fun t => meaning t.kind)
      (Parse.acceptAs fun t => meaning t.kind) := by
  have hid : Mirrors r before (Option.map id) (Parse.acceptAs fun t => meaning t.kind)
      (Parse.acceptAs fun t => meaning t.kind) :=
    Mirrors.acceptAs fun t => by simp
  rwa [Option.map_id] at hid

end

theorem Mirrors.operator (r : Relabelling) (before : List Token) (tier : Nat) :
    Mirrors r before id (operator tier) (operator tier) :=
  Mirrors.acceptAs_kind fun kind => kind.binaryOp?.filter (·.tier = tier)

/-! ## Expressions -/

section

variable {r : Relabelling} {before : List Token} {p : Parse Node}

theorem Mirrors.chained (tier : Nat) (hp : Mirrors r before (Node.relabel r) p p) :
    Mirrors r before (Node.relabel r) (chained tier p) (chained tier p) := by
  -- one round for each token ahead, in both rows of tokens
  have hchain : ∀ rounds left, Mirrors r before (Node.relabel r) (chain tier p rounds left)
      (chain tier p (rounds.map r.token) (left.relabel r)) := by
    intro rounds
    induction rounds with
    | nil => exact fun left => .pure left
    | cons t rounds ih =>
      intro left
      rw [List.map_cons]
      unfold Parse.chain
      refine (Mirrors.operator r before tier).bind fun op => ?_
      rcases op with _ | op
      · exact .pure left
      · refine hp.bind fun right => ?_
        simp only [Node.position_relabel, ← Node.relabel_binary]
        exact ih _
  exact hp.bind fun left => .bounded fun rounds => hchain rounds left

theorem Mirrors.expression (hp : Mirrors r before (Node.relabel r) p p) :
    Mirrors r before (Node.relabel r) (expression p) (expression p) :=
  (((hp.chained 4).chained 3).chained 2).chained 1

theorem Mirrors.statements (hp : Mirrors r before (Node.relabel r) p p) :
    Mirrors r before (fun (es, e) => (Node.relabelAll r es, e.relabel r)) (statements p)
      (statements p) := by
  refine .bounded fun rounds => ?_
  induction rounds with
  | nil => exact hp.expression.bind fun e => .pure ([], e)
  | cons t rounds ih =>
    refine hp.expression.bind fun e => (Mirrors.accept _).bind fun s => ?_
    rcases s with _ | s
    · exact .pure ([], e)
    · exact ih.bind fun (es, last) => .pure (e :: es, last)

theorem Mirrors.arguments (hp : Mirrors r before (Node.relabel r) p p) :
    Mirrors r before (Node.relabelAll r) (arguments p) (arguments p) := by
  refine .bounded fun rounds => ?_
  induction rounds with
  | nil => exact hp.expression.bind fun e => .pure [e]
  | cons t rounds ih =>
    refine (Mirrors.accept _).bind fun close => ?_
    rcases close with _ | close
    · refine hp.expression.bind fun e => (Mirrors.accept _).bind fun close => ?_
      rcases close with _ | close
      · exact (Mirrors.expect _).bind fun _ => ih.bind fun es => .pure (e :: es)
      · exact .pure [e]
    · exact .pure []

theorem Mirrors.userVar (hp : Mirrors r before (Node.relabel r) p p) (dollar : Token) :
    Mirrors r before (Node.relabel r) (userVar p dollar) (userVar p (r.token dollar)) := by
  unfold Parse.userVar
  rw [r.position_token]
  refine (Mirrors.expect _).bind fun x => ?_
  rw [r.payload_token]
  refine (Mirrors.accept _).bind fun q => ?_
  rcases q with _ | q
  · refine (Mirrors.acceptAs_kind _).bind fun op => ?_
    rcases op with _ | op
    · exact .pure (Node.userVar dollar.position x.payload)
    · exact hp.expression.bind fun e => .pure (Node.mathAssign dollar.position op x.payload e)
  · exact hp.expression.bind fun e => .pure (Node.assign dollar.position x.payload e)

theorem Mirrors.ifElse (hp : Mirrors r before (Node.relabel r) p p) (word : Token) :
    Mirrors r before (Node.relabel r) (ifElse p word) (ifElse p (r.token word)) := by
  unfold Parse.ifElse
  rw [r.position_token]
  refine (Mirrors.expect _).bind fun _ => hp.expression.bind fun cond => ?_
  refine (Mirrors.expect _).bind fun _ => hp.expression.bind fun yes => ?_
  refine (Mirrors.expect _).bind fun _ => hp.expression.bind fun no => ?_
  exact .pure (Node.ifElse word.position cond yes no)

theorem Mirrors.primaryAfter (hp : Mirrors r before (Node.relabel r) p p) (t : Token) :
    Mirrors r before (Node.relabel r) (primaryAfter p t) (primaryAfter p (r.token t)) := by
  unfold Parse.primaryAfter
  rw [r.kind_token, r.position_token, r.payload_token]
  generalize t.kind = kind
  split
  case h_1 => exact .pure (Node.number t.position t.payload)
  case h_2 => exact .pure (Node.bool t.position true)
  case h_3 => exact .pure (Node.bool t.position false)
  case h_4 => exact hp.bind fun e => .pure (Node.negate t.position e)
  case h_5 => exact hp.bind fun e => .pure (Node.not t.position e)
  case h_6 =>
    refine (Mirrors.accept _).bind fun l => ?_
    rcases l with _ | l
    · exact .pure (Node.var t.position t.payload)
    · exact hp.arguments.bind fun args => .pure (Node.call t.position t.payload args)
  case h_7 => exact hp.userVar t
  case h_8 =>
    refine hp.statements.bind fun (exprs, last) => (Mirrors.expect _).bind fun _ => ?_
    exact .pure (Node.block t.position exprs last)
  case h_9 => exact hp.expression.bind fun e => (Mirrors.expect _).bind fun _ => .pure e
  case h_10 => exact hp.ifElse t
  case h_11 => exact .throw ⟨rfl, rfl, rfl⟩

end

/-- Primary expressions are read alike with as much room. -/
theorem Mirrors.primary (r : Relabelling) (before : List Token) (room : Nat) :
    Mirrors r before (Node.relabel r) (primary room) (primary room) := by
  induction room with
  | zero =>
    refine (Mirrors.advance _).bind fun t => ?_
    exact fun c => ⟨⟨rfl, rfl, rfl⟩, rfl⟩
  | succ room ih => exact (Mirrors.advance _).bind fun t => (ih.primaryAfter t).nested

end Parse

end ExprFront
