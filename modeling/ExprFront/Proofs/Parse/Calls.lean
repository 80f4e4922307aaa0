import ExprFront.Proofs.Parse.Settling

/-!
# Calls of a parser

A parser can be called again and again, also after failures. A call fails on the token that it has
read last; only a program with something left over fails on a token that is still ahead. Since every
call closes what it opens, as many primary expressions count as open as the nesting has been too
deep, whatever the calls.
-/

namespace ExprFront

namespace Parse

variable {α : Type}

/-! ## Calls -/

/-- What a call gives. -/
inductive Answer where
  | token (t : Token)
  | found (t : Option Token)
  | truth (holds : Bool)
  | tree (tree : Node)
  | trees (trees : List Node)

/-- What a parser can be called for. -/
inductive Call where
  | advance (expected : List TokenKind)
  | expect (kind : TokenKind)
  | accept (kinds : List TokenKind)
  | check (kinds : List TokenKind)
  | program
  | blockBody
  | expression
  | equality
  | relational
  | additive
  | multiplicative
  | primary
  | arguments
  | userVar (dollar : Token)
  | ifElse (word : Token)

namespace Call

/-- Answers a call with at most `maxDepth` primary expressions open at once. -/
def run (maxDepth : Int) : Call → Parse Answer
  | .advance expected => return .token (← Parse.advance expected)
  | .expect kind => return .token (← Parse.expect kind)
  | .accept kinds => return .found (← Parse.accept kinds)
  | .check kinds => return .truth ((← get).check kinds)
  | .program => return .tree (← within maxDepth Parse.program)
  | .blockBody => return .tree (← within maxDepth Parse.blockBody)
  | .expression => return .tree (← within maxDepth Parse.expression)
  | .equality => return .tree (← within maxDepth Parse.equality)
  | .relational => return .tree (← within maxDepth Parse.relational)
  | .additive => return .tree (← within maxDepth Parse.additive)
  | .multiplicative => return .tree (← within maxDepth Parse.multiplicative)
  | .primary => return .tree (← within maxDepth id)
  | .arguments => return .trees (← within maxDepth Parse.arguments)
  | .userVar dollar => return .tree (← within maxDepth (Parse.userVar · dollar))
  | .ifElse word => return .tree (← within maxDepth (Parse.ifElse · word))

/-- How many tokens a call passes over at least if it succeeds: one, unless it only looks at the
token ahead or may leave it there. -/
def least : Call → Nat
  | .accept _ | .check _ => 0
  | _ => 1

/-- The program called for has its statements, whatever is behind them. -/
def HasStatements (maxDepth : Int) (call : Call) (c : Cursor) : Prop :=
  call = .program ∧ ∃ block c', within maxDepth Parse.blockBody c = .ok block c'

end Call

/-- Where an outcome leaves the cursor. -/
def cursorBehind : EStateM.Result ParseError Cursor α → Cursor
  | .ok _ c => c
  | .error _ c => c

/-- How often an outcome is that the nesting is too deep: once or not at all. -/
def nestingFaults : EStateM.Result ParseError Cursor α → Nat
  | .error (.nestingTooDeep _) _ => 1
  | _ => 0

/-- What a call among these tokens has read when it ends. A success has read at least as many tokens
as the call needs, and a program all of them. Where tokens are lacking, all have been read. A token
at fault is the last that has been read, unless it is left over behind the statements of a program. -/
def Call.Reads (maxDepth : Int) (tokens : List Token) (call : Call) (c : Cursor) :
    EStateM.Result ParseError Cursor Answer → Prop
  | .ok _ c' =>
    c.index + call.least ≤ c'.index ∧ (call = .program → c'.index = tokens.length)
  | .error (.unexpectedEnd _ _) c' => c'.index = tokens.length
  | .error (.unexpectedToken t _) c' =>
    (call.HasStatements maxDepth c → tokens[c'.index]? = some t) ∧
      (¬ call.HasStatements maxDepth c → 0 < c'.index ∧ tokens[c'.index - 1]? = some t)
  | .error (.nestingTooDeep t) c' => 0 < c'.index ∧ tokens[c'.index - 1]? = some t

/-- How a call among these tokens ends: the cursor is among them, and no further back; the primary
expressions opened are closed again, but for one that is nested too deeply. -/
structure Call.Ends (maxDepth : Int) (tokens : List Token) (call : Call) (c : Cursor)
    (r : EStateM.Result ParseError Cursor Answer) : Prop where
  tokens_eq : (cursorBehind r).tokens = tokens
  index_le : c.index ≤ (cursorBehind r).index
  depth_eq : (cursorBehind r).depth = c.depth + nestingFaults r
  reads : call.Reads maxDepth tokens c r

/-! ## Calls in a row -/

/-- A parser in use: its cursor, and how often the nesting has been too deep. -/
structure Session where
  cursor : Cursor
  nestingFaults : Nat

namespace Session

/-- A parser that has not been called. -/
def start (tokens : List Token) : Session :=
  ⟨.ofTokens tokens, 0⟩

/-- A parser after a call. -/
def call (maxDepth : Int) (s : Session) (call : Call) : Session :=
  let r := call.run maxDepth s.cursor
  ⟨cursorBehind r, s.nestingFaults + Parse.nestingFaults r⟩

end Session

section

variable {maxDepth : Int} {tokens : List Token} {c : Cursor}

theorem Settles.answered {least : Nat} {step : Parse Node → Parse α}
    (h : ∀ room, Settles least (step (Parse.primary room))) (answer : α → Answer) :
    Settles least (Parse.within maxDepth step >>= fun a => Pure.pure (answer a)) :=
  (Settles.within h maxDepth).bind fun a =>
    (Settles.pure (answer a)).mono (Nat.le_of_eq (Nat.sub_self least))

/-- All calls but that for a program leave the cursor behind what they read or report. -/
theorem Call.settles {call : Call} (h : call ≠ .program) :
    Settles call.least (call.run maxDepth) := by
  have hprimary := Settles.primary
  cases call with
  | advance expected => exact (Settles.advance expected).bind fun t => .pure _
  | expect kind => exact (Settles.expect kind).bind fun t => .pure _
  | accept kinds => exact (Settles.acceptAs _).bind fun t => .pure _
  | check kinds => exact fun c => Settles.pure _ c
  | program => exact absurd rfl h
  | blockBody => exact Settles.answered (fun room => (hprimary room).blockBody) .tree
  | expression => exact Settles.answered (fun room => (hprimary room).expression) .tree
  | equality => exact Settles.answered (fun room => (hprimary room).expression) .tree
  | relational => exact Settles.answered (fun room => (hprimary room).relational) .tree
  | additive => exact Settles.answered (fun room => (hprimary room).additive) .tree
  | multiplicative => exact Settles.answered (fun room => (hprimary room).multiplicative) .tree
  | primary => exact Settles.answered hprimary .tree
  | arguments => exact Settles.answered (fun room => (hprimary room).arguments) .trees
  | userVar dollar => exact Settles.answered (fun room => (hprimary room).userVar dollar) .tree
  | ifElse word => exact Settles.answered (fun room => (hprimary room).ifElse word) .tree

theorem Settled.ends {call : Call} {r : EStateM.Result ParseError Cursor Answer}
    (h : Settled call.least c r)
    (hstatements : call.HasStatements maxDepth c → ∃ a c', r = .ok a c')
    (hprogram : call = .program → ∀ a c', r = .ok a c' → c'.ahead = []) :
    call.Ends maxDepth c.tokens c r := by
  cases h with
  | ok read hc hleast =>
    refine ⟨Cursor.tokens_over hc, by simp [cursorBehind], rfl, ?_, fun hcall => ?_⟩
    · rw [Cursor.index_over]
      omega
    · rw [← Cursor.tokens_over hc]
      exact Cursor.index_eq_length (hprogram hcall _ _ rfl)
  | unexpectedEnd =>
    have hc : c.ahead = c.ahead ++ [] := (List.append_nil _).symm
    refine ⟨Cursor.tokens_over hc, by simp [cursorBehind], rfl, ?_⟩
    show (c.over c.ahead []).index = c.tokens.length
    rw [← Cursor.tokens_over hc]
    exact Cursor.index_eq_length rfl
  | @unexpectedToken t expected read rest hc =>
    have hread : c.ahead = (read ++ [t]) ++ rest := by simp [hc]
    refine ⟨Cursor.tokens_over hread, by simp [cursorBehind], rfl, fun hcall => ?_, fun _ => ?_⟩
    · obtain ⟨a, c', heq⟩ := hstatements hcall
      cases heq
    · exact Cursor.getElem?_over_concat hc
  | @nestingTooDeep t read rest hc =>
    have hread : c.ahead = (read ++ [t]) ++ rest := by simp [hc]
    have hindex : c.index ≤ (c.over (read ++ [t]) rest).index := by simp
    exact ⟨Cursor.tokens_over hread, hindex, rfl, Cursor.getElem?_over_concat hc⟩

theorem Call.ends_program (maxDepth : Int) (c : Cursor) :
    Call.program.Ends maxDepth c.tokens c (Call.program.run maxDepth c) := by
  have hsettled := (Settles.primary (c.room maxDepth)).blockBody c
  simp only [Call.run, bind_apply, within_apply, program_run]
  cases hblock : Parse.blockBody (Parse.primary (c.room maxDepth)) c with
  | error e c' =>
    rw [hblock] at hsettled
    have hsettled : Settled Call.program.least c (.error e c' : EStateM.Result _ _ Answer) :=
      hsettled.of_error
    refine hsettled.ends ?_ fun _ _ _ h => by cases h
    rintro ⟨-, block, c'', hok⟩
    rw [within_apply, hblock] at hok
    cases hok
  | ok block c' =>
    rw [hblock] at hsettled
    obtain ⟨read, hc, hleast, hover⟩ := hsettled.exists_of_ok
    cases hahead : c'.ahead with
    | nil =>
      have hsettled : Settled Call.program.least c (.ok (Answer.tree block) c') := by
        rw [hover]
        exact .ok read hc hleast
      simp only [hahead]
      refine hsettled.ends (fun _ => ⟨_, _, rfl⟩) ?_
      rintro - _ _ ⟨⟩
      exact hahead
    -- the token left over has not been read
    | cons t rest =>
      have htokens : c'.tokens = c.tokens := hover ▸ Cursor.tokens_over hc
      have hindex : c.index ≤ c'.index := by rw [hover, Cursor.index_over]; omega
      have hdepth : c'.depth = c.depth := by rw [hover]; rfl
      simp only [hahead]
      refine ⟨htokens, hindex, hdepth, fun _ => ?_, fun hnone => ?_⟩
      · rw [← htokens]
        exact Cursor.getElem?_index hahead
      · exact absurd ⟨rfl, block, c', hblock⟩ hnone

/-- Every call ends in this way, whatever calls came before. -/
theorem Call.ends (maxDepth : Int) (call : Call) (c : Cursor) :
    call.Ends maxDepth c.tokens c (call.run maxDepth c) := by
  by_cases hcall : call = .program
  · exact hcall ▸ ends_program maxDepth c
  · exact (Call.settles hcall c).ends (fun h => absurd h.1 hcall) fun h => absurd h hcall

/-- The token at fault in a program is one of its tokens. -/
theorem mem_tokens_of_error {c' : Cursor} {e : ParseError} {t : Token}
    (h : within maxDepth Parse.program c = .error e c') (ht : e.token? = some t) : t ∈ c.tokens := by
  have hreads := (Call.ends maxDepth .program c).reads
  rw [show Call.program.run maxDepth c = .error e c' from bind_error h] at hreads
  cases e with
  | unexpectedEnd => cases ht
  | unexpectedToken u expected =>
    cases ht
    by_cases hleft : Call.program.HasStatements maxDepth c
    · exact List.mem_of_getElem? (hreads.1 hleft)
    · exact List.mem_of_getElem? (hreads.2 hleft).2
  | nestingTooDeep u =>
    cases ht
    exact List.mem_of_getElem? hreads.2

end

end Parse

end ExprFront
