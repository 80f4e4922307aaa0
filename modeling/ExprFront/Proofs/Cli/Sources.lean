import ExprFront.Proofs.Cli.Offsets
import ExprFront.Proofs.Cli.Presetting
import ExprFront.Proofs.Cli.Statuses

/-!
# Programs in files and on the command line

A program in a file is printed in the same way as the same program given on the command line, although
carriage returns are dropped from a file. Where attached separators are dropped there is one program
that cannot be given on the command line: that of two minus signs. What is run in its place is the
empty program.
-/

namespace ExprFront.Cli

/-- Whatever the tab size is, and even if it is missing, carriage returns before line feeds make no
difference but to the offsets. -/
theorem scanWith_withoutReturns (tabSize : Option Int) {text : List Char} (h : ReturnsFeed text) :
    (scanWith tabSize (withoutReturns text)).map (List.map ScanItem.fromZero) =
      (scanWith tabSize text).map (List.map ScanItem.fromZero) := by
  cases tabSize with
  | some tabSize =>
    have hmap : ∀ scanned : Except Unreadable (List ScanItem),
        (scanned.mapError Unreadable.message).map (List.map ScanItem.fromZero) =
          (scanned.map (List.map ScanItem.fromZero)).mapError Unreadable.message := by
      rintro (u | items) <;> rfl
    unfold scanWith
    dsimp only
    rw [hmap, hmap, scan_withoutReturns tabSize h]
  | none =>
    have hfront : (withoutReturns text).takeWhile (· ≠ '\t') =
        withoutReturns (text.takeWhile (· ≠ '\t')) := takeWhile_withoutReturns (by simp) text
    have htab : '\t' ∈ withoutReturns text ↔ '\t' ∈ text := by simp [withoutReturns]
    have hreturns : ReturnsFeed (text.takeWhile (· ≠ '\t')) := h.takeWhile (by simp)
    have hscan := scan_withoutReturns Scanner.defaultTabSize hreturns
    unfold scanWith
    simp only [hfront, htab]
    cases hrun : scan Scanner.defaultTabSize (text.takeWhile (· ≠ '\t')) <;>
      cases hrun' : scan Scanner.defaultTabSize (withoutReturns (text.takeWhile (· ≠ '\t'))) <;>
      rw [hrun, hrun'] at hscan
    case error.error u u' =>
      cases hscan
      rfl
    case ok.ok items items' =>
      dsimp only
      split
      · rfl
      · exact congrArg Except.ok (Except.ok.inj hscan)
    all_goals cases hscan

section

variable {rule : SeparatorRule} {arguments before after : List String}
  {settings settings₀ settings' : Settings} {name : String} {text : List Char}
  {read read' : String → Except FileFault (List UInt8)}

/-- A file with the encoding of a program is run without the carriage returns of the program. -/
theorem answer_encoded (h : requestUnder rule arguments = .run settings)
    (hsource : settings.source = .file name) (hname : '\x00' ∉ name.toList)
    (hread : read name = .ok (Utf8.encode text)) (hreturns : ReturnsFeed text) :
    answerUnder rule arguments read = run settings (withoutReturns text) := by
  rw [answer_file h hsource hname, hread]
  unfold runFile
  dsimp only
  rw [Utf8.decode_eq_ok_iff.2 rfl]
  dsimp only
  rw [hreturns.unifyNewlines]

/-- A program whose carriage returns are all followed by line feeds is printed alike whether it is in a
file or given among other arguments that ask for the same. Where attached separators are kept it may be
any such program, and where they are dropped any other than two minus signs. -/
theorem answer_expr_eq_answer_file (hreturns : ReturnsFeed text)
    (htext : rule = .kept ∨ text ≠ separator) (hfile : requestUnder rule arguments = .run settings)
    (hsource : settings.source = .file name) (hname : '\x00' ∉ name.toList)
    (hread : read name = .ok (Utf8.encode text))
    (hbefore : requestUnder rule before = .run settings₀)
    (hothers : requestUnder rule (before ++ after) = .run settings')
    (hexpr : settings'.expr = none) (hseparator : "--" ∉ before ++ after)
    (halike : settings.AsksAlike settings') :
    (answerUnder rule (before ++ exprArgument text :: after) read').unlogged =
      (answerUnder rule arguments read).unlogged := by
  have hrun : answerUnder rule (before ++ exprArgument text :: after) read' =
      run { settings' with expr := some (String.ofList text) } text := by
    rw [answer_text (request_exprArgument hbefore hothers hexpr hseparator htext) rfl,
      String.toList_ofList]
  rw [hrun, answer_encoded hfile hsource hname hread hreturns]
  exact run_fromZero ⟨halike.tokens, halike.json, halike.tabSize, halike.maxDepth⟩
    (scanWith_withoutReturns settings.tabSize hreturns).symm

end

/-- A sum with a tab in it and a number on the next line have their tokens listed alike, with the tab
size asked for behind the program; and so have two minus signs where they are kept. -/
theorem answer_expr_eq_answer_file_sums :
    let text := "1+\t2;\r\n3".toList
    let arguments := ["--tokens", "a", "--tab-size", "2"]
    let settings : Settings := { Settings.default with tokens := true, tabSize := some 2 }
    let read : List Char → String → Except FileFault (List UInt8) :=
      fun text _ => .ok (Utf8.encode text)
    ReturnsFeed text ∧ text ≠ separator ∧ (∀ rule,
      requestUnder rule arguments = .run { settings with file := some "a" } ∧
      requestUnder rule ["--tokens"] = .run { Settings.default with tokens := true } ∧
      requestUnder rule (["--tokens"] ++ ["--tab-size", "2"]) = .run settings ∧
      (answerUnder rule (["--tokens"] ++ exprArgument text :: ["--tab-size", "2"])
          (read text)).unlogged =
        (answerUnder rule arguments (read text)).unlogged) ∧
      (answerUnder .kept (["--tokens"] ++ exprArgument separator :: ["--tab-size", "2"])
          (read separator)).unlogged =
        (answerUnder .kept arguments (read separator)).unlogged := by
  intro text arguments settings read
  have hreturns : ReturnsFeed text := by decide
  have htext : text ≠ separator := by decide
  have hfile : ∀ rule, requestUnder rule arguments = .run { settings with file := some "a" } := by
    rintro (_ | _) <;> decide +kernel
  have hbefore : ∀ rule,
      requestUnder rule ["--tokens"] = .run { Settings.default with tokens := true } := by
    rintro (_ | _) <;> decide +kernel
  have hothers : ∀ rule,
      requestUnder rule (["--tokens"] ++ ["--tab-size", "2"]) = .run settings := by
    rintro (_ | _) <;> decide +kernel
  refine ⟨hreturns, htext, fun rule => ⟨hfile rule, hbefore rule, hothers rule, ?_⟩, ?_⟩
  · exact answer_expr_eq_answer_file hreturns (.inr htext) (hfile rule) rfl (by decide) rfl
      (hbefore rule) (hothers rule) rfl (by decide) ⟨rfl, rfl, rfl, rfl⟩
  · exact answer_expr_eq_answer_file (by decide) (.inl rfl) (hfile .kept) rfl (by decide) rfl
      (hbefore .kept) (hothers .kept) rfl (by decide) ⟨rfl, rfl, rfl, rfl⟩

/-- Two minus signs are a program that ends where an operand is expected. In a file it ends behind
them, and on the command line, where they are dropped, it ends where it begins. -/
theorem answer_expr_separator :
    let settings : Settings := { Settings.default with file := some "a" }
    let read : String → Except FileFault (List UInt8) := fun _ => .ok (Utf8.encode separator)
    let fault := "Parse error: Unexpected end of input, expected one of: "
      ++ "BANG, DOLLAR, FALSE, IDENTIFIER, IF, LBRACE, LPAREN, MINUS, NUMBER, TRUE"
    ReturnsFeed separator ∧ request ["a"] = .run settings ∧
      (answer ["a"] read).unlogged = .finished 1 ["[ExprLang L1:C3] " ++ fault] [] ∧
      (answer [exprArgument separator] read).unlogged =
        .finished 1 ["[ExprLang L1:C1] " ++ fault] [] ∧
      (answer [exprArgument separator] read).unlogged ≠ (answer ["a"] read).unlogged := by
  intro settings read fault
  have hreturns : ReturnsFeed separator := by decide
  have hfile : requestUnder .dropped ["a"] = .run settings := by decide +kernel
  have hgiven : requestUnder .dropped [exprArgument separator] =
      .run { Settings.default with expr := some "" } := by
    decide +kernel
  have hanswerFile : (answer ["a"] read).unlogged =
      .finished 1 ["[ExprLang L1:C3] " ++ fault] [] := by
    unfold answer
    rw [answer_encoded hfile rfl (by decide) rfl hreturns]
    decide +kernel
  have hanswerGiven : (answer [exprArgument separator] read).unlogged =
      .finished 1 ["[ExprLang L1:C1] " ++ fault] [] := by
    unfold answer
    rw [answer_text hgiven rfl]
    decide +kernel
  refine ⟨hreturns, hfile, hanswerFile, hanswerGiven, ?_⟩
  rw [hanswerFile, hanswerGiven]
  decide +kernel

end ExprFront.Cli
