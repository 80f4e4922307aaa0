import ExprFront.Cli.Run
import ExprFront.Proofs.Cli.Presetting

/-!
# Asking for a log

A run that is asked for a log prints the same and ends with the same status. On the command line the
log may be asked for in front of all other arguments: they are read as they are without it.
-/

namespace ExprFront.Cli

/-- An outcome without what has been logged on the way. -/
def Outcome.unlogged : Outcome → Outcome
  | .finished status printed _ => .finished status printed []
  | outcome => outcome

/-- A run comes to the same with and without a log. -/
theorem run_verbose (settings : Settings) (verbose : Bool) (text : List Char) :
    (run { settings with verbose } text).unlogged = (run settings text).unlogged := by
  unfold run
  dsimp only
  cases scanWith settings.tabSize text with
  | error message => rfl
  | ok items =>
    dsimp only
    cases tokensOf items with
    | error failure =>
      cases failure with
      | unreadable u => rfl
      | lexical errors => rfl
    | ok tokens =>
      dsimp only
      split
      · unfold listTokens
        split <;> rfl
      · unfold printTree
        dsimp only
        split
        · rfl
        · split <;> rfl

/-! ## Reading the command line -/

/-- The settings with a log asked for. -/
def Settings.logging (settings : Settings) : Settings :=
  { settings with verbose := true }

/-- The reading with a log asked for. -/
def Reading.logging (r : Reading) : Reading :=
  { r with settings := r.settings.logging }

/-- The request with a log asked for, if it is for a run. -/
def Request.logging : Request → Request
  | .run settings => .run settings.logging
  | request => request

theorem Settings.logging_presets : Presets logging where
  set settings rule flag value := by
    cases flag with
    | tabSize | maxDepth =>
      unfold set
      cases integerSetting _ (rule.value? value) <;> rfl
    | _ => rfl
  file _ _ := rfl

/-- A log that has been asked for makes no difference to what the other arguments ask for. -/
theorem Reading.take_logging (r : Reading) (rule : SeparatorRule) (behindFile : Bool)
    (arguments : List Argument) :
    r.logging.take rule behindFile arguments = (r.take rule behindFile arguments).map logging :=
  take_preset Settings.logging_presets r rule behindFile arguments

/-- Asked for in front, a log is all that is asked for besides. -/
theorem request_verbose (rule : SeparatorRule) (arguments : List String) :
    requestUnder rule ("-v" :: arguments) = requestUnder rule arguments ∨
      ∃ settings, requestUnder rule arguments = .run settings ∧
        requestUnder rule ("-v" :: arguments) = .run settings.logging := by
  have hsort : Argument.sort "-v".toList = .ok (.flag .verbose true none) := rfl
  unfold requestUnder
  rw [Argument.sortAll, if_neg (by decide), hsort]
  cases Argument.sortAll arguments with
  | error message => exact .inl rfl
  | ok sorted =>
    have htake : Reading.start.take rule false (.flag .verbose true none :: sorted) =
        (Reading.start.take rule false sorted).map Reading.logging := by
      rw [← Reading.take_logging, Reading.take]
      rfl
    dsimp only [bind, Except.bind, pure, Except.pure]
    rw [htake]
    cases Reading.start.take rule false sorted with
    | error request => exact .inl rfl
    | ok r =>
      dsimp only [Except.map]
      rw [show r.logging.extras = r.extras from rfl]
      split
      · exact .inr ⟨r.settings, rfl, rfl⟩
      · exact .inl rfl

/-- A command line prints the same and ends in the same way with a log asked for in front. -/
theorem answer_verbose (rule : SeparatorRule) (arguments : List String)
    (read : String → Except FileFault (List UInt8)) :
    (answerUnder rule ("-v" :: arguments) read).unlogged =
      (answerUnder rule arguments read).unlogged := by
  unfold answerUnder
  obtain hsame | ⟨settings, hwithout, hwith⟩ := request_verbose rule arguments
  · rw [hsame]
  · rw [hwithout, hwith]
    dsimp only
    rw [show settings.logging.source = settings.source from rfl]
    cases settings.source with
    | text text => exact run_verbose settings true _
    | file name =>
      dsimp only
      split
      · rfl
      · unfold runFile
        cases read name with
        | error fault => rfl
        | ok bytes =>
          dsimp only
          cases Utf8.decode bytes with
          | error fault => rfl
          | ok text => exact run_verbose settings true _

end ExprFront.Cli
