import Mathlib.Data.List.Infix
import ExprFront.Proofs.Cli.Places
import ExprFront.Proofs.Cli.Verbose
import ExprFront.Proofs.Text.Unbroken

/-!
# What a run prints

A run prints what scanning and parsing give, each message and each token on a line of its own. Where
every position has a decimal text nothing else can happen: the status is 1 for errors, and 0
otherwise.
-/

namespace ExprFront.Cli

/-! ## Lines -/

/-- What is written when texts are printed: each with a line feed behind it. -/
def written (printed : List String) : List Char :=
  printed.flatMap fun text => text.toList ++ ['\n']

/-- The texts printed are the lines of what is written, whatever characters end lines. -/
def AreLines (printed : List String) : Prop :=
  (written printed).splitOnP lineBreaks.holds = printed.map String.toList ++ [[]]

theorem areLines_of_unbroken {printed : List String}
    (h : ∀ text ∈ printed, Unbroken text.toList) : AreLines printed := by
  unfold AreLines
  induction printed with
  | nil => rfl
  | cons text rest ih =>
    obtain ⟨htext, hrest⟩ := List.forall_mem_cons.1 h
    have hwritten : written (text :: rest) = text.toList ++ '\n' :: written rest := by
      simp [written]
    rw [hwritten, List.splitOnP_append_cons_of_forall_mem htext _ (by decide), ih hrest]
    rfl

/-! ## Runs -/

/-- The line that counts the errors of a text. -/
def countLine (errors : List LexError) : String :=
  s!"[ExprLang] {errors.length} lexical error(s), nothing parsed."

/-- What is to be printed for a text, and the status: the errors of the text in their order and their
number; or else its tokens in their order, if they are asked for; or else the error of parsing them;
or else the tree. -/
inductive Reports (settings : Settings) (tabSize maxDepth : Int) (text : List Char) :
    Nat → List String → Prop where
  | errors {errors : List LexError} (htext : tokenize tabSize text = .error (.lexical errors))
      (hlines : AreLines (errors.map LexError.message ++ [countLine errors])) :
      Reports settings tabSize maxDepth text 1 (errors.map LexError.message ++ [countLine errors])
  | tokens {tokens : List Token} (htext : tokenize tabSize text = .ok tokens)
      (hflag : settings.tokens = true) (hlines : AreLines (tokens.map Token.display)) :
      Reports settings tabSize maxDepth text 0 (tokens.map Token.display)
  | fault {tokens : List Token} {e : ParseError} (htext : tokenize tabSize text = .ok tokens)
      (hflag : settings.tokens = false) (hparse : parse maxDepth tokens = .error e)
      (hlines : AreLines [e.message]) :
      Reports settings tabSize maxDepth text 1 [e.message]
  | json {tokens : List Token} {tree : Node} (htext : tokenize tabSize text = .ok tokens)
      (hflag : settings.tokens = false) (hparse : parse maxDepth tokens = .ok tree)
      (hjson : settings.json = true) :
      Reports settings tabSize maxDepth text 0 [tree.toJson.indented 0]
  | outline {tokens : List Token} {tree : Node} (htext : tokenize tabSize text = .ok tokens)
      (hflag : settings.tokens = false) (hparse : parse maxDepth tokens = .ok tree)
      (hjson : settings.json = false) :
      Reports settings tabSize maxDepth text 0 [tree.outlineText Outline.defaultIndent]

section

variable {settings : Settings} {tabSize maxDepth : Int} {text : List Char} {items : List ScanItem}
  {errors : List LexError} {tokens : List Token}

theorem tokensOf_eq_error {failure : ScanFailure} (h : tokensOf items = .error failure) :
    ∃ errors, failure = .lexical errors := by
  unfold tokensOf at h
  split at h <;> cases h
  exact ⟨_, rfl⟩

theorem unbroken_countLine (errors : List LexError) : Unbroken (countLine errors).toList := by
  have hcount : Unbroken (toString "[ExprLang] " ++ toString errors.length).toList :=
    Unbroken.append_string (by decide) (unbroken_nat _)
  exact hcount.append_string (b := " lexical error(s), nothing parsed.") (by decide)

theorem reports_errors (htext : tokenize tabSize text = .error (.lexical errors)) :
    Reports settings tabSize maxDepth text 1
      (errors.map LexError.message ++ [countLine errors]) := by
  refine .errors htext (areLines_of_unbroken fun line hline => ?_)
  rcases List.mem_append.1 hline with hmessage | hcount
  · obtain ⟨e, -, rfl⟩ := List.mem_map.1 hmessage
    exact e.unbroken_message
  · rw [List.mem_singleton.1 hcount]
    exact unbroken_countLine errors

theorem reports_tokens (htext : tokenize tabSize text = .ok tokens)
    (hflag : settings.tokens = true) :
    Reports settings tabSize maxDepth text 0 (tokens.map Token.display) := by
  refine .tokens htext hflag (areLines_of_unbroken fun line hline => ?_)
  obtain ⟨t, -, rfl⟩ := List.mem_map.1 hline
  exact t.unbroken_display

theorem listTokens_of_writable {logged : List String}
    (h : ∀ t ∈ tokens, t.position.isWritable = true) :
    listTokens settings logged tokens =
      .finished 0 (tokens.map Token.display) (log settings logged) := by
  have htake : tokens.takeWhile (fun t => t.position.isWritable) = tokens := by
    rw [List.takeWhile_eq_self_iff]
    exact h
  have hall : (tokens.all fun t => t.position.isWritable) = true := List.all_eq_true.2 h
  unfold listTokens
  rw [htake, hall]
  rfl

/-- Parsed tokens are reported as a tree or as an error. -/
theorem exists_reports_printTree (hdepth : settings.maxDepth = some maxDepth)
    (h : Writable tabSize maxDepth text) (htext : tokenize tabSize text = .ok tokens)
    (hflag : settings.tokens = false) (logged : List String) :
    ∃ status printed logged', printTree settings logged tokens = .finished status printed logged' ∧
      Reports settings tabSize maxDepth text status printed := by
  unfold printTree
  rw [hdepth]
  simp only [reduceCtorEq, false_and, if_false, Option.getD_some, parseTokens_eq]
  cases hparse : parse maxDepth tokens with
  | error e =>
    have hlines : AreLines [e.message] :=
      areLines_of_unbroken fun line hline => List.mem_singleton.1 hline ▸ e.unbroken_message
    simp only [Except.mapError, ParseError.raised_of_isWritable (h.fault tokens e htext hparse)]
    exact ⟨1, _, _, rfl, .fault htext hflag hparse hlines⟩
  | ok tree =>
    refine ⟨0, _, _, rfl, ?_⟩
    unfold renderTree
    cases hjson : settings.json with
    | true => exact .json htext hflag hparse hjson
    | false => exact .outline htext hflag hparse hjson

/-- Where every position has a text, a run with both integers finishes with what is to be reported. -/
theorem exists_reports_run (htab : settings.tabSize = some tabSize)
    (hdepth : settings.maxDepth = some maxDepth) (h : Writable tabSize maxDepth text) :
    ∃ status printed logged, run settings text = .finished status printed logged ∧
      Reports settings tabSize maxDepth text status printed := by
  obtain ⟨items, hrun, hitems⟩ := exists_itemsAt tabSize text
  have hwritable := h.item items hitems
  have hscan : scan tabSize text = .ok items :=
    hrun.trans (ScanItem.raisedAll_of_worded fun item hmem =>
      ScanItem.isWorded_of_position (hwritable item hmem))
  have htext : tokenize tabSize text = tokensOf items := by
    unfold tokenize
    rw [hscan]
  unfold run scanWith
  rw [htab]
  dsimp only
  rw [hscan]
  dsimp only [Except.mapError]
  cases hof : tokensOf items with
  | error failure =>
    obtain ⟨errors, rfl⟩ := tokensOf_eq_error hof
    exact ⟨1, _, _, rfl, reports_errors (htext.trans hof)⟩
  | ok tokens =>
    rw [hof] at htext
    dsimp only
    cases hflag : settings.tokens with
    | true =>
      have htokens : ∀ t ∈ tokens, t.position.isWritable = true := by
        intro t ht
        rw [tokensOf_eq_ok_iff.1 hof] at hwritable
        exact hwritable (.token t) (List.mem_map_of_mem ht)
      rw [if_pos rfl, listTokens_of_writable htokens]
      exact ⟨0, _, _, rfl, reports_tokens htext hflag⟩
    | false => exact exists_reports_printTree hdepth h htext hflag _

end

/-- The program does what scanning and parsing do. Where every position has a decimal text, a run
finishes and prints the errors of the text and their number with status 1, or else the tokens, if
they are asked for, with status 0, or else the error of parsing with status 1, or else the tree with
status 0; messages and tokens are on lines of their own. And asking for a log, in the settings or in
front of all arguments, changes neither what is printed nor how the run ends. -/
theorem run_reports :
    (∀ settings tabSize maxDepth text, settings.tabSize = some tabSize →
      settings.maxDepth = some maxDepth → Writable tabSize maxDepth text →
      ∃ status printed logged, run settings text = .finished status printed logged ∧
        Reports settings tabSize maxDepth text status printed) ∧
    (∀ settings verbose text,
      (run { settings with verbose } text).unlogged = (run settings text).unlogged) ∧
    ∀ rule arguments read, (answerUnder rule ("-v" :: arguments) read).unlogged =
      (answerUnder rule arguments read).unlogged :=
  ⟨fun _ _ _ _ => exists_reports_run, run_verbose, answer_verbose⟩

/-- A stray character is reported on one line, and the number of errors on another. -/
theorem run_reports_stray :
    let text := ['x', '?']
    Writable 4 defaultMaxDepth text ∧ ∃ printed logged, run .default text = .finished 1 printed logged ∧
      AreLines printed ∧ printed = ["[ExprLang L1:C2] Lexer error: Unexpected character: '?'",
        "[ExprLang] 1 lexical error(s), nothing parsed."] := by
  intro text
  have hplaces : ∀ front ∈ text.inits, (Position.first.afterAll 4 front).isWritable = true := by
    decide +kernel
  have hwritable : Writable 4 defaultMaxDepth text :=
    .of_places fun front hfront => hplaces front (List.mem_inits front text |>.2 hfront)
  have hscan : tokenize 4 text =
      .error (.lexical [⟨.unexpectedCharacter, ⟨1, 2⟩, some "?"⟩]) := by
    decide +kernel
  refine ⟨hwritable, ?_⟩
  obtain ⟨status, printed, logged, hrun, hreports⟩ := run_reports.1 .default _ _ _ rfl rfl hwritable
  cases hreports with
  | errors htext hlines =>
    cases hscan.symm.trans htext
    exact ⟨_, logged, hrun, hlines, by decide +kernel⟩
  | tokens htext | fault htext | json htext | outline htext => cases hscan.symm.trans htext

end ExprFront.Cli
