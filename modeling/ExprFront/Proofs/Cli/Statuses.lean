import ExprFront.Cli.Run
import ExprFront.Proofs.Text.Encoding

/-!
# Statuses

A run comes to a status, whatever the program and the settings are, and so does a call whose file
cannot be read. What no status is returned for is a file with a null character in its name, and one
with bytes that are no text: both faults come up before there is a program to run, and they are not
among those that reading a file is expected to have.
-/

namespace ExprFront.Cli

/-- The status that a call returns. It returns none if it exits or if a fault escapes it. -/
def Outcome.status? : Outcome → Option Nat
  | .finished status _ _ => some status
  | .failed _ => some 2
  | .exited _ _ _ | .escaped _ => none

/-- A call returns one of the statuses 0, 1 and 2. -/
def Outcome.Returns (outcome : Outcome) : Prop :=
  ∃ status ≤ 2, outcome.status? = some status

/-- If the program comes from a file, the file has a name that it can be opened by, and its bytes, if
it has any, encode a text. -/
def Settings.ReadsText (settings : Settings) (read : String → Except FileFault (List UInt8)) :
    Prop :=
  match settings.source with
  | .text _ => True
  | .file name => '\x00' ∉ name.toList ∧
      ∀ bytes, read name = .ok bytes → ∃ text, bytes = Utf8.encode text

section

variable (settings : Settings) (logged printed : List String) (text : List Char)

theorem returns_finished {status : Nat} (h : status ≤ 2) :
    (Outcome.finished status printed logged).Returns :=
  ⟨status, h, rfl⟩

theorem returns_internalError (message : String) : (internalError printed message).Returns :=
  ⟨2, Nat.le_refl 2, rfl⟩

theorem returns_listTokens (tokens : List Token) :
    (listTokens settings logged tokens).Returns := by
  unfold listTokens
  dsimp only
  split
  · exact returns_finished _ _ (by decide)
  · exact returns_internalError _ _

theorem returns_printTree (tokens : List Token) :
    (printTree settings logged tokens).Returns := by
  unfold printTree
  dsimp only
  split
  · exact returns_internalError _ _
  · split
    · exact returns_finished _ _ (by decide)
    · exact returns_internalError _ _
    · exact returns_finished _ _ (by decide)

/-- Whatever is run, a status is returned. -/
theorem returns_run : (run settings text).Returns := by
  unfold run
  split
  · exact returns_internalError _ _
  · dsimp only
    split
    · exact returns_internalError _ _
    · exact returns_finished _ _ (by decide)
    · split
      · exact returns_listTokens _ _ _
      · exact returns_printTree _ _ _

end

/-- A file that is found is run if its bytes encode a text; otherwise the fault in them escapes. -/
theorem runFile_found (settings : Settings) (name : String) (bytes : List UInt8) :
    (∃ text, bytes = Utf8.encode text ∧
      runFile settings name (.ok bytes) = run settings (Utf8.unifyNewlines text)) ∨
    (∀ text, bytes ≠ Utf8.encode text) ∧
      ∃ fault, runFile settings name (.ok bytes) = .escaped (.undecodable fault) := by
  unfold runFile
  dsimp only
  cases hdecode : Utf8.decode bytes with
  | ok text => exact .inl ⟨text, Utf8.decode_eq_ok_iff.1 hdecode, rfl⟩
  | error fault =>
    refine .inr ⟨fun text hbytes => ?_, fault, rfl⟩
    cases hdecode.symm.trans (Utf8.decode_eq_ok_iff.2 hbytes)

section

variable {rule : SeparatorRule} {arguments : List String} {settings : Settings} {name : String}
  {read : String → Except FileFault (List UInt8)}

/-- A program that is given with the call is run. -/
theorem answer_text {text : String} (h : requestUnder rule arguments = .run settings)
    (hsource : settings.source = .text text) :
    answerUnder rule arguments read = run settings text.toList := by
  simp only [answerUnder, h, hsource]

theorem answer_file (h : requestUnder rule arguments = .run settings)
    (hsource : settings.source = .file name) (hname : '\x00' ∉ name.toList) :
    answerUnder rule arguments read = runFile settings name (read name) := by
  have hcontains : name.contains '\x00' = false := by simpa using hname
  simp only [answerUnder, h, hsource, hcontains, Bool.false_eq_true, if_false]

theorem answer_nullInName (h : requestUnder rule arguments = .run settings)
    (hsource : settings.source = .file name) (hname : '\x00' ∈ name.toList) :
    answerUnder rule arguments read = .escaped .nullInName := by
  have hcontains : name.contains '\x00' = true := by simpa using hname
  simp only [answerUnder, h, hsource, hcontains, if_true]

/-- A call that asks for a run returns 0, 1 or 2 if its program is given with it, if its file cannot be
read and if the file is a text. Otherwise a fault escapes it. -/
theorem answer_returns (h : requestUnder rule arguments = .run settings) :
    (settings.ReadsText read → (answerUnder rule arguments read).Returns) ∧
      (¬ settings.ReadsText read → ∃ fault, answerUnder rule arguments read = .escaped fault) := by
  unfold Settings.ReadsText
  cases hsource : settings.source with
  | text text =>
    rw [answer_text h hsource]
    exact ⟨fun _ => returns_run settings _, fun hread => absurd trivial hread⟩
  | file name =>
    dsimp only
    by_cases hname : '\x00' ∈ name.toList
    · rw [answer_nullInName h hsource hname]
      exact ⟨fun hread => absurd hname hread.1, fun _ => ⟨_, rfl⟩⟩
    · rw [answer_file h hsource hname]
      cases read name with
      | error fault =>
        refine ⟨fun _ => returns_finished _ _ (by decide), fun hread => absurd ⟨hname, ?_⟩ hread⟩
        rintro bytes ⟨⟩
      | ok bytes =>
        obtain ⟨text, hbytes, hrun⟩ | ⟨hbytes, fault, hrun⟩ := runFile_found settings name bytes
        · rw [hrun]
          refine ⟨fun _ => returns_run settings _, fun hread => absurd ⟨hname, ?_⟩ hread⟩
          rintro _ ⟨⟩
          exact ⟨text, hbytes⟩
        · refine ⟨fun ⟨_, hread⟩ => ?_, fun _ => ⟨_, hrun⟩⟩
          obtain ⟨text, htext⟩ := hread bytes rfl
          exact absurd htext (hbytes text)

end

/-- A file with a single letter is read and run. -/
theorem answer_returns_letter :
    let settings : Settings := { Settings.default with file := some "a" }
    let read : String → Except FileFault (List UInt8) := fun _ => .ok [0x61]
    request ["a"] = .run settings ∧ settings.ReadsText read ∧ (answer ["a"] read).Returns := by
  intro settings read
  have hrequest : request ["a"] = .run settings := by decide +kernel
  have hread : settings.ReadsText read := by
    refine ⟨by decide +kernel, ?_⟩
    rintro _ ⟨⟩
    exact ⟨['a'], by decide +kernel⟩
  exact ⟨hrequest, hread, (answer_returns hrequest).1 hread⟩

/-- A file with a byte that begins no character is asked for, and no status is returned. -/
theorem answer_undecodable :
    let settings : Settings := { Settings.default with file := some "a" }
    let read : String → Except FileFault (List UInt8) := fun _ => .ok [0xFF]
    request ["a"] = .run settings ∧
      answer ["a"] read = .escaped (.undecodable ⟨0, 0xFF, 1, .invalidStart⟩) ∧
      ¬ (answer ["a"] read).Returns := by
  intro settings read
  have hrequest : request ["a"] = .run settings := by decide +kernel
  have hanswer : answer ["a"] read = .escaped (.undecodable ⟨0, 0xFF, 1, .invalidStart⟩) :=
    answer_file hrequest rfl (by decide +kernel)
  refine ⟨hrequest, hanswer, ?_⟩
  rw [hanswer]
  rintro ⟨status, -, ⟨⟩⟩

/-- An integer that is dropped is missed when the first token is parsed, and one that is kept is
refused. -/
example :
    let arguments := ["--expr=x", "--max-depth=--"]
    let read : String → Except FileFault (List UInt8) := fun _ => .error .missing
    (answerUnder .dropped arguments read).status? = some 2 ∧
      requestUnder .kept arguments = flagError .maxDepth "invalid int value: '--'" := by
  decide +kernel

end ExprFront.Cli
