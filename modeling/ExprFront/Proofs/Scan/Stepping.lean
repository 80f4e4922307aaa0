import ExprFront.Proofs.Scan.Division
import Mathlib.Data.List.DropRight
import Mathlib.Logic.Function.Iterate

/-!
# Scanning step by step

A caller may ask a scanner for one item after the other, and for all the rest at any time. A scan is
a loop that does the same, so however much was asked for before it, it finds what is left: together
they are the items of one scan, and there is nothing left to find behind it.
-/

namespace ExprFront.Scanner

/-! ## The loop of a scan -/

/-- Behind the blanks ahead a scanner meets an item, which it passes over when a token is scanned. -/
structure Meets (s : Scanner) (item : ScanItem) (s' : Scanner) : Prop where
  ahead : s.skipBlanks.ahead ≠ []
  run : s.skipBlanks.scanToken = (item.outcome, s')
  shorter : s'.ahead.length < s.ahead.length

section

variable {s s' : Scanner} {item : ScanItem} {rounds : Nat}

theorem skipBlanks_of_nil (h : s.ahead = []) : s.skipBlanks = s := by
  unfold skipBlanks passWhile pass
  cases s
  simp_all

theorem skipBlanks_skipBlanks (s : Scanner) : s.skipBlanks.skipBlanks = s.skipBlanks := by
  have hdrop := List.dropWhile_idempotent (isBlank ∘ face) s.ahead
  have htake : (s.ahead.dropWhile (isBlank ∘ face)).takeWhile (isBlank ∘ face) = [] := by
    have hsplit := List.takeWhile_append_dropWhile (p := isBlank ∘ face)
      (l := s.ahead.dropWhile (isBlank ∘ face))
    rwa [hdrop, List.append_left_eq_self] at hsplit
  show (s.pass _ _).passWhile isBlank = _
  rw [passWhile_pass, htake, List.append_nil, hdrop]
  rfl

theorem iterate_skipBlanks (s : Scanner) (again : Nat) :
    skipBlanks^[again + 1] s = s.skipBlanks := by
  rw [Function.iterate_succ_apply]
  exact Function.iterate_fixed (skipBlanks_skipBlanks s) again

theorem length_skipBlanks_le (s : Scanner) : s.skipBlanks.ahead.length ≤ s.ahead.length :=
  (List.dropWhile_sublist _).length_le

/-- Behind the blanks ahead there is the end of the text or an item. -/
theorem end_or_meets (s : Scanner) : s.skipBlanks.ahead = [] ∨ ∃ item s', s.Meets item s' := by
  cases hahead : s.skipBlanks.ahead with
  | nil => exact .inl rfl
  | cons c rest =>
    obtain ⟨item, text, rest', htext, hne, -, hrun⟩ := scanToken_spec hahead
    have hlength := s.length_skipBlanks_le
    have hpos := List.length_pos_iff.2 hne
    rw [htext, List.length_append] at hlength
    refine .inr ⟨item, s.skipBlanks.begin.pass text rest', by simp [hahead], hrun, ?_⟩
    show rest'.length < s.ahead.length
    omega

theorem Meets.rounds_succ (h : s.Meets item s') (hworded : item.isWorded = true) :
    scanRounds (rounds + 1) s = withItem item (scanRounds rounds s') := by
  obtain ⟨c, rest, hahead⟩ := List.exists_cons_of_ne_nil h.ahead
  exact scanRounds_item hahead h.run hworded

theorem Meets.rounds_unworded (h : s.Meets item s') (hworded : item.isWorded = false) :
    scanRounds (rounds + 1) s = (.error .position, s') := by
  obtain ⟨c, rest, hahead⟩ := List.exists_cons_of_ne_nil h.ahead
  exact scanRounds_unworded hahead h.run hworded

theorem scanRounds_of_end (h : s.skipBlanks.ahead = []) (hrounds : s.ahead.length ≤ rounds) :
    scanRounds rounds s = (.ok [], s.skipBlanks) := by
  cases rounds with
  | zero => rw [skipBlanks_of_nil (List.length_eq_zero_iff.1 (Nat.le_zero.1 hrounds)), scanRounds]
  | succ rounds =>
    have hend : s.skipBlanks.atEnd = true := by rw [atEnd, h, List.isEmpty_nil]
    rw [scanRounds]
    simp only [hend, if_true]

/-- Rounds beyond one for each character ahead change nothing. -/
theorem scanRounds_congr {rounds' : Nat} (h : s.ahead.length ≤ rounds)
    (h' : s.ahead.length ≤ rounds') : scanRounds rounds s = scanRounds rounds' s := by
  induction rounds generalizing s rounds' with
  | zero =>
    have hnil := List.length_eq_zero_iff.1 (Nat.le_zero.1 h)
    have hend : s.skipBlanks.ahead = [] := by rw [skipBlanks_of_nil hnil, hnil]
    rw [scanRounds_of_end hend h, scanRounds_of_end hend h']
  | succ rounds ih =>
    obtain hend | ⟨item, s', hmeets⟩ := end_or_meets s
    · rw [scanRounds_of_end hend h, scanRounds_of_end hend h']
    · have hlt := hmeets.shorter
      cases rounds' with
      | zero => omega
      | succ rounds' =>
        have hrest : scanRounds rounds s' = scanRounds rounds' s' := ih (by omega) (by omega)
        cases hworded : item.isWorded with
        | true => rw [hmeets.rounds_succ hworded, hmeets.rounds_succ hworded, hrest]
        | false => rw [hmeets.rounds_unworded hworded, hmeets.rounds_unworded hworded]

theorem scan_of_end (h : s.skipBlanks.ahead = []) : s.scan = (.ok [], s.skipBlanks) :=
  scanRounds_of_end h (Nat.le_refl _)

/-- A scan finds the item that is met and goes on as a scan from behind it. -/
theorem Meets.scan_eq (h : s.Meets item s') (hworded : item.isWorded = true) :
    s.scan = withItem item s'.scan := calc
  s.scan = scanRounds (s.ahead.length + 1) s := scanRounds_congr (Nat.le_refl _) (Nat.le_succ _)
  _ = withItem item (scanRounds s.ahead.length s') := h.rounds_succ hworded
  _ = withItem item s'.scan :=
    congrArg _ (scanRounds_congr (Nat.le_of_lt h.shorter) (Nat.le_refl _))

/-- A scan ends behind an error that cannot be worded. -/
theorem Meets.scan_unworded (h : s.Meets item s') (hworded : item.isWorded = false) :
    s.scan = (.error .position, s') :=
  (scanRounds_congr (Nat.le_refl _) (Nat.le_succ _)).trans (h.rounds_unworded hworded)

/-- A scan that finds items ends with nothing ahead. -/
theorem ahead_of_scan (s : Scanner) {items : List ScanItem} (h : s.scan = (.ok items, s')) : s'.ahead = [] := by
  obtain hend | ⟨item, behind, hmeets⟩ := end_or_meets s
  · rw [scan_of_end hend] at h
    cases h
    exact hend
  · have hlt := hmeets.shorter
    cases hworded : item.isWorded with
    | true =>
      rw [hmeets.scan_eq hworded] at h
      cases hrun : behind.scan with
      | mk found last =>
        rw [hrun] at h
        cases found with
        | ok rest =>
          cases h
          exact ahead_of_scan behind hrun
        | error u => cases h
    | false =>
      rw [hmeets.scan_unworded hworded] at h
      cases h
termination_by s.ahead.length

theorem Meets.of_skipBlanks (h : s.skipBlanks.Meets item s') : s.Meets item s' where
  ahead := s.skipBlanks_skipBlanks ▸ h.ahead
  run := s.skipBlanks_skipBlanks ▸ h.run
  shorter := Nat.lt_of_lt_of_le h.shorter s.length_skipBlanks_le

/-- Blanks skipped before a scan change nothing. -/
theorem scan_skipBlanks (s : Scanner) : s.skipBlanks.scan = s.scan := by
  obtain hend | ⟨item, s', hmeets⟩ := end_or_meets s.skipBlanks
  · rw [scan_of_end hend, skipBlanks_skipBlanks]
    rw [skipBlanks_skipBlanks] at hend
    rw [scan_of_end hend]
  · cases hworded : item.isWorded with
    | true => rw [hmeets.scan_eq hworded, hmeets.of_skipBlanks.scan_eq hworded]
    | false => rw [hmeets.scan_unworded hworded, hmeets.of_skipBlanks.scan_unworded hworded]

end

/-! ## Steps -/

/-- A step of a caller, who skips the blanks ahead once and any number of times again, and then scans
a token unless the text has ended. A lexical error goes on record like a token. -/
def step (again : Nat) (s : Scanner) : Except Unreadable (Option ScanItem) × Scanner :=
  let s := skipBlanks^[again + 1] s
  if s.atEnd then (.ok none, s)
  else
    match s.scanToken with
    | (.ok t, s) => (.ok (some (.token t)), s)
    | (.error (.lexical e), s) => (.ok (some (.error e)), s)
    | (.error (.unreadable u), s) => (.error u, s)

/-- Steps one after the other, and the items on record behind them. -/
def steps : List Nat → Scanner → Except Unreadable (List ScanItem) × Scanner
  | [], s => (.ok [], s)
  | again :: more, s =>
    match s.step again with
    | (.ok none, s) => steps more s
    | (.ok (some item), s) => withItem item (steps more s)
    | (.error u, s) => (.error u, s)

section

variable {s s' : Scanner} {item : ScanItem}

theorem step_of_end (h : s.skipBlanks.ahead = []) (again : Nat) :
    s.step again = (.ok none, s.skipBlanks) := by
  have hend : s.skipBlanks.atEnd = true := by rw [atEnd, h, List.isEmpty_nil]
  unfold step
  rw [iterate_skipBlanks]
  simp only [hend, if_true]

theorem Meets.step_eq (h : s.Meets item s') (hworded : item.isWorded = true) (again : Nat) :
    s.step again = (.ok (some item), s') := by
  have hend : s.skipBlanks.atEnd = false := by simpa [atEnd] using h.ahead
  unfold step
  rw [iterate_skipBlanks]
  simp only [hend, Bool.false_eq_true, if_false, h.run]
  cases item with
  | token t => rfl
  | error e =>
    have hraised : e.raised = .lexical e := if_pos hworded
    simp only [ScanItem.outcome, hraised]

theorem Meets.step_unworded (h : s.Meets item s') (hworded : item.isWorded = false) (again : Nat) :
    s.step again = (.error .position, s') := by
  have hend : s.skipBlanks.atEnd = false := by simpa [atEnd] using h.ahead
  unfold step
  rw [iterate_skipBlanks]
  simp only [hend, Bool.false_eq_true, if_false, h.run, ScanItem.outcome_of_not hworded]

/-- A scan finds the items of the steps before it and then those of the scan behind them, or it ends
where a step does. -/
theorem scan_eq_of_steps (run : List Nat) (s : Scanner) :
    (∃ recorded s', s.steps run = (.ok recorded, s') ∧
      s.scan = (s'.scan.1.map (recorded ++ ·), s'.scan.2)) ∨
    ∃ s', s.steps run = (.error .position, s') ∧ s.scan = (.error .position, s') := by
  induction run generalizing s with
  | nil =>
    refine .inl ⟨[], s, rfl, ?_⟩
    cases s.scan with
    | mk found last => cases found <;> rfl
  | cons again run ih =>
    obtain hend | ⟨item, s', hmeets⟩ := end_or_meets s
    · have hstep : s.steps (again :: run) = s.skipBlanks.steps run := by
        rw [steps, step_of_end hend]
      rw [hstep, ← scan_skipBlanks]
      exact ih s.skipBlanks
    cases hworded : item.isWorded with
    | false =>
      refine .inr ⟨s', ?_, hmeets.scan_unworded hworded⟩
      rw [steps, hmeets.step_unworded hworded]
    | true =>
      have hstep : s.steps (again :: run) = withItem item (s'.steps run) := by
        rw [steps, hmeets.step_eq hworded]
      rw [hstep, hmeets.scan_eq hworded]
      obtain ⟨recorded, s₁, hsteps, hscan⟩ | ⟨s₁, hsteps, hscan⟩ := ih s'
      · refine .inl ⟨item :: recorded, s₁, by rw [hsteps]; rfl, ?_⟩
        rw [hscan]
        cases s₁.scan with
        | mk found last => cases found <;> rfl
      · exact .inr ⟨s₁, by rw [hsteps]; rfl, by rw [hscan]; rfl⟩

end

/-- However many items a caller asks for one by one, and however often blanks are skipped in between,
the scan of the rest completes them to the items of one scan of the text, and a further scan finds
nothing. If an error of the text cannot be worded, that ends one of the steps or the scan behind them
as it ends the one scan. -/
theorem steps_scan (tabSize : Int) (text : List Char) (run : List Nat) :
    (∃ recorded rest s s', (ofText tabSize text).steps run = (.ok recorded, s) ∧
      s.scan = (.ok rest, s') ∧ ExprFront.scan tabSize text = .ok (recorded ++ rest) ∧
      s'.scan = (.ok [], s')) ∨
    ExprFront.scan tabSize text = .error .position ∧
      ((∃ s, (ofText tabSize text).steps run = (.error .position, s)) ∨
        ∃ recorded s s', (ofText tabSize text).steps run = (.ok recorded, s) ∧
          s.scan = (.error .position, s')) := by
  obtain ⟨items, hitems, -⟩ := exists_itemsAt tabSize text
  obtain ⟨recorded, s, hsteps, hscan⟩ | ⟨s, hsteps, hscan⟩ := scan_eq_of_steps run (ofText tabSize text)
  · have hwhole : ExprFront.scan tabSize text = s.scan.1.map (recorded ++ ·) := congrArg Prod.fst hscan
    cases hrest : s.scan with
    | mk found s' =>
      rw [hrest] at hwhole
      cases found with
      | ok rest =>
        have hend : s'.ahead = [] := ahead_of_scan s hrest
        have hblanks := skipBlanks_of_nil hend
        refine .inl ⟨recorded, rest, s, s', hsteps, hrest, hwhole, ?_⟩
        rw [scan_of_end (hblanks.symm ▸ hend), hblanks]
      | error u =>
        obtain rfl := ScanItem.eq_position_of_raisedAll (hitems.symm.trans hwhole)
        exact .inr ⟨hwhole, .inr ⟨recorded, s, s', hsteps, hrest⟩⟩
  · exact .inr ⟨congrArg Prod.fst hscan, .inl ⟨s, hsteps⟩⟩

end ExprFront.Scanner
