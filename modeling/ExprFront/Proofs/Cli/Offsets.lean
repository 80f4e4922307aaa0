import ExprFront.Proofs.Cli.Places
import ExprFront.Proofs.Cli.Verbose
import ExprFront.Proofs.Parse.Kinds
import ExprFront.Proofs.Scan.Returns

/-!
# Offsets are not shown

The offsets of tokens are of use for the length of the last one only, from which the end of the tokens
is reckoned. So a run on other items with the same texts, kinds, payloads and positions prints the
same, whatever their offsets are.
-/

namespace ExprFront

open Parse

/-! ## Parsing -/

/-- Reckons the offsets of every token from its own first character. -/
def Relabelling.fromZero : Relabelling where
  token := Token.fromZero
  position := id
  payload := id
  kind_token _ := rfl
  position_token _ := rfl
  payload_token _ := rfl

@[simp] theorem Relabelling.position_fromZero (p : Position) : fromZero.position p = p := rfl

@[simp] theorem Relabelling.payload_fromZero (payload : Payload) :
    fromZero.payload payload = payload := rfl

mutual

/-- Offsets are not in trees. -/
theorem Node.relabel_fromZero (node : Node) : node.relabel .fromZero = node := by
  cases node <;> simp [relabel, relabel_fromZero, relabelAll_fromZero]

theorem Node.relabelAll_fromZero (nodes : List Node) :
    Node.relabelAll .fromZero nodes = nodes := by
  cases nodes with
  | nil => rfl
  | cons node rest => simp only [relabelAll, relabel_fromZero, relabelAll_fromZero]

end

@[simp] theorem Token.position_fromZero (t : Token) : t.fromZero.position = t.position := rfl

@[simp] theorem Token.display_fromZero (t : Token) : t.fromZero.display = t.display := rfl

/-- The position behind a token is reckoned from its length. -/
theorem Token.endPosition_fromZero (t : Token) : t.fromZero.endPosition = t.endPosition := by
  simp [endPosition, fromZero]

/-- What is shown of an error. -/
def ParseError.report (e : ParseError) : Position × String :=
  (e.position, e.message)

/-- Errors of one kind that expect the same at the same position are shown alike. -/
theorem ParseError.Corresponds.report_eq {e e' : ParseError}
    (h : e.Corresponds .fromZero e') (hposition : e'.position = e.position) :
    e'.report = e.report := by
  obtain ⟨hkind, hexpected, htoken⟩ := h
  have hdescription : e'.description = e.description := by
    cases e <;> cases e' <;> cases htoken <;> cases hexpected <;>
      first | rfl | simp [ParseError.kindName] at hkind
  simp only [report, message, hposition, hdescription]

/-- Tokens are parsed alike whatever their offsets are reckoned from. -/
theorem parse_fromZero (maxDepth : Int) (tokens : List Token) :
    (parse maxDepth (tokens.map Token.fromZero)).mapError ParseError.report =
      (parse maxDepth tokens).mapError ParseError.report := by
  by_cases hne : tokens = []
  · rw [hne, List.map_nil]
  have hcarries : Carries .fromZero [] (Node.relabel .fromZero)
      (program (primary maxDepth.toNat) (.ofTokens tokens))
      (program (primary maxDepth.toNat) (.ofTokens (tokens.map Token.fromZero))) :=
    carries_program .fromZero [] maxDepth.toNat hne
  have hend : (tokens.map Token.fromZero).getLast?.elim .first Token.endPosition =
      tokens.getLast?.elim .first Token.endPosition := by
    rw [List.getLast?_map]
    cases tokens.getLast? with
    | none => rfl
    | some t => exact t.endPosition_fromZero
  cases hrun : parse maxDepth tokens with
  | ok tree =>
    have hrun' : parse maxDepth (tokens.map Token.fromZero) = .ok tree := by
      rw [parse_eq] at hrun ⊢
      split at hrun <;> cases hrun
      rename_i hprogram
      rw [hprogram] at hcarries
      rw [hcarries.of_ok, Node.relabel_fromZero]
    rw [hrun']
  | error e =>
    obtain ⟨e', hrun', he⟩ : ∃ e', parse maxDepth (tokens.map Token.fromZero) = .error e' ∧
        e.Corresponds .fromZero e' := by
      rw [parse_eq] at hrun
      split at hrun <;> cases hrun
      rename_i hprogram
      rw [hprogram] at hcarries
      obtain ⟨e', hprogram', he⟩ := hcarries.of_error
      exact ⟨e', by rw [parse_eq, hprogram'], he⟩
    rw [hrun']
    refine congrArg Except.error (he.report_eq ?_)
    -- a token at fault keeps its position, and the end of the tokens is where it was
    cases e with
    | unexpectedEnd p expected =>
      cases e' with
      | unexpectedEnd p' expected' =>
        exact (position_of_unexpectedEnd hrun').trans
          (hend.trans (position_of_unexpectedEnd hrun).symm)
      | unexpectedToken | nestingTooDeep => cases he.token
    | unexpectedToken t expected | nestingTooDeep t => cases e' <;> cases he.token <;> rfl

theorem parse_eq_of_fromZero (maxDepth : Int) {tokens tokens' : List Token}
    (h : tokens'.map Token.fromZero = tokens.map Token.fromZero) :
    (parse maxDepth tokens').mapError ParseError.report =
      (parse maxDepth tokens).mapError ParseError.report := by
  rw [← parse_fromZero maxDepth tokens', h, parse_fromZero]

/-! ## Items -/

/-- Items are sorted into tokens and errors whatever the offsets are. -/
theorem tokensOf_fromZero (items : List ScanItem) :
    tokensOf (items.map ScanItem.fromZero) = (tokensOf items).map (List.map Token.fromZero) := by
  have herrors : (items.map ScanItem.fromZero).filterMap ScanItem.error? =
      items.filterMap ScanItem.error? := by
    rw [List.filterMap_map]
    refine List.filterMap_congr fun item _ => ?_
    cases item <;> rfl
  have htokens : (items.map ScanItem.fromZero).filterMap ScanItem.token? =
      (items.filterMap ScanItem.token?).map Token.fromZero := by
    rw [List.filterMap_map, List.map_filterMap]
    refine List.filterMap_congr fun item _ => ?_
    cases item <;> rfl
  unfold tokensOf
  rw [herrors, htokens]
  split <;> rfl

namespace Cli

/-- The settings ask for the same, but for the source of the program and a log. -/
structure Settings.AsksAlike (settings settings' : Settings) : Prop where
  tokens : settings'.tokens = settings.tokens
  json : settings'.json = settings.json
  tabSize : settings'.tabSize = settings.tabSize
  maxDepth : settings'.maxDepth = settings.maxDepth

section

variable {settings settings' : Settings} {text text' : List Char} {tokens tokens' : List Token}
  {logged logged' : List String}

theorem listTokens_fromZero (h : tokens'.map Token.fromZero = tokens.map Token.fromZero) :
    (listTokens settings' logged' tokens').unlogged =
      (listTokens settings logged tokens).unlogged := by
  have hprinted : ∀ tokens : List Token,
      (tokens.takeWhile fun t => t.position.isWritable).map Token.display =
        ((tokens.map Token.fromZero).takeWhile fun t => t.position.isWritable).map Token.display := by
    intro tokens
    simp only [List.takeWhile_map, List.map_map, Function.comp_def, Token.position_fromZero,
      Token.display_fromZero]
  have hall : ∀ tokens : List Token, (tokens.all fun t => t.position.isWritable) =
      (tokens.map Token.fromZero).all fun t => t.position.isWritable := by
    intro tokens
    simp only [List.all_map, Function.comp_def, Token.position_fromZero]
  unfold listTokens
  rw [hprinted tokens', hall tokens', h, ← hprinted, ← hall]
  dsimp only
  split <;> rfl

theorem printTree_fromZero (hsettings : settings.AsksAlike settings')
    (h : tokens'.map Token.fromZero = tokens.map Token.fromZero) :
    (printTree settings' logged' tokens').unlogged =
      (printTree settings logged tokens).unlogged := by
  have hempty : tokens' = [] ↔ tokens = [] := by
    rw [← List.map_eq_nil_iff, h, List.map_eq_nil_iff]
  unfold printTree
  rw [hsettings.maxDepth, parseTokens_eq, parseTokens_eq]
  simp only [ne_eq, hempty]
  split
  · rfl
  generalize settings.maxDepth.getD defaultMaxDepth = maxDepth
  have hparse := parse_eq_of_fromZero maxDepth h
  cases hrun : parse maxDepth tokens <;> cases hrun' : parse maxDepth tokens' <;>
    rw [hrun, hrun'] at hparse
  case error.error e e' =>
    obtain ⟨hposition, hmessage⟩ := Prod.mk.inj (Except.error.inj hparse)
    simp only [Except.mapError, ParseError.raised, hposition]
    cases e.position.isWritable with
    | true =>
      simp only [if_true, hmessage]
      rfl
    | false => rfl
  case ok.ok tree tree' =>
    cases hparse
    unfold renderTree
    rw [hsettings.json]
    rfl
  all_goals cases hparse

/-- Runs on items that differ in their offsets only print the same and end with the same status. -/
theorem run_fromZero (hsettings : settings.AsksAlike settings')
    (h : (scanWith settings.tabSize text').map (List.map ScanItem.fromZero) =
      (scanWith settings.tabSize text).map (List.map ScanItem.fromZero)) :
    (run settings' text').unlogged = (run settings text).unlogged := by
  unfold run
  rw [hsettings.tabSize]
  cases hscan : scanWith settings.tabSize text <;>
    cases hscan' : scanWith settings.tabSize text' <;> rw [hscan, hscan'] at h
  case error.error message message' =>
    cases h
    rfl
  case ok.error | error.ok => cases h
  rename_i items items'
  have hsame : (tokensOf items').map (List.map Token.fromZero) =
      (tokensOf items).map (List.map Token.fromZero) := by
    rw [← tokensOf_fromZero, Except.ok.inj h, tokensOf_fromZero]
  dsimp only
  cases hof : tokensOf items <;> cases hof' : tokensOf items' <;> rw [hof, hof'] at hsame
  case error.error failure failure' =>
    cases hsame
    cases failure with
    | unreadable u => rfl
    | lexical errors => rfl
  case ok.ok tokens tokens' =>
    have htokens : tokens'.map Token.fromZero = tokens.map Token.fromZero := Except.ok.inj hsame
    dsimp only
    rw [hsettings.tokens]
    split
    · exact listTokens_fromZero htokens
    · exact printTree_fromZero hsettings htokens
  all_goals cases hsame

end

end Cli

end ExprFront
