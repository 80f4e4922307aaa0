import ExprFront.Cli.Arguments

/-!
# Settings made in advance

An argument that stands for flags is taken together with the value behind it, if one is due, and a run
is asked for only if every argument has been taken. Arguments change settings one by one, so a change
that each of them leaves intact may as well be made before they are read. A program given among other
arguments is such a change as long as none of them gives another one: the request is for what the others
ask for, with this program.
-/

namespace ExprFront.Cli

/-! ## The arguments of flags -/

/-- The flags that an argument stands for with their values, and the arguments behind: one of them may
be the value of the last flag. -/
def gather (flag : Flag) (short : Bool) (attached : Option (List Char)) (rest : List Argument) :
    Except Request (List (Flag × List Char) × List Argument) :=
  cluster flag short attached >>= fun c =>
    match c.waiting, rest with
    | none, rest => .ok (c.complete, rest)
    | some last, .plain value :: rest => .ok (c.complete ++ [(last, value)], rest)
    | some last, _ => .error (flagError last "expected one argument")

section

variable {flag : Flag} {short : Bool} {attached : Option (List Char)} {rest rest' : List Argument}
  {flags : List (Flag × List Char)}

/-- Flags are set one after the other, and reading goes on behind the last value. -/
theorem Reading.take_flag (r : Reading) (rule : SeparatorRule) (behindFile : Bool) :
    r.take rule behindFile (.flag flag short attached :: rest) =
      gather flag short attached rest >>= fun (flags, rest) =>
        r.takeFlags rule flags >>= fun r => r.take rule false rest := by
  rw [take, gather]
  cases cluster flag short attached with
  | error request => rfl
  | ok c =>
    dsimp only [bind, Except.bind]
    cases c.waiting with
    | none => rfl
    | some last => rcases rest with _ | ⟨_ | _ | _ | _, _⟩ <;> rfl

theorem gather_append (h : gather flag short attached rest = .ok (flags, rest'))
    (more : List Argument) :
    gather flag short attached (rest ++ more) = .ok (flags, rest' ++ more) := by
  unfold gather at h ⊢
  cases hcluster : cluster flag short attached with
  | error request =>
    rw [hcluster] at h
    cases h
  | ok c =>
    rw [hcluster] at h
    dsimp only [bind, Except.bind] at h ⊢
    split at h <;> cases h <;> rename_i hwaiting <;> simp only [hwaiting, List.cons_append]

theorem length_of_gather (h : gather flag short attached rest = .ok (flags, rest')) :
    rest'.length ≤ rest.length := by
  unfold gather at h
  cases hcluster : cluster flag short attached with
  | error request =>
    rw [hcluster] at h
    cases h
  | ok c =>
    rw [hcluster] at h
    dsimp only [bind, Except.bind] at h
    split at h <;> cases h <;> simp

end

/-! ## Requests for a run -/

/-- Arguments that cannot be taken do not ask for a run. -/
def Runless {α : Type} (taken : Except Request α) : Prop :=
  ∀ settings, taken ≠ .error (.run settings)

section

variable {α β : Type}

theorem runless_ok (a : α) : Runless (.ok a) := nofun

theorem Runless.bind {taken : Except Request α} {next : α → Except Request β}
    (htaken : Runless taken) (hnext : ∀ a, Runless (next a)) : Runless (taken >>= next) := by
  cases taken with
  | error request =>
    rintro settings ⟨⟩
    exact htaken settings rfl
  | ok a => exact hnext a

theorem Runless.map {taken : Except Request α} (h : Runless taken) (f : α → β) :
    Runless (taken.map f) := by
  cases taken with
  | error request =>
    rintro settings ⟨⟩
    exact h settings rfl
  | ok a => exact runless_ok _

end

theorem runless_integerFor (flag : Flag) (value : List Char) : Runless (integerFor flag value) := by
  unfold integerFor
  split <;> rintro settings ⟨⟩

theorem runless_integerSetting (flag : Flag) (value? : Option (List Char)) :
    Runless (integerSetting flag value?) := by
  cases value? with
  | none => exact runless_ok _
  | some value => exact (runless_integerFor flag value).map _

theorem runless_set (settings : Settings) (rule : SeparatorRule) (flag : Flag)
    (value : List Char) : Runless (settings.set rule flag value) := by
  cases flag with
  | tabSize | maxDepth => exact (runless_integerSetting _ _).map _
  | _ => rintro settings ⟨⟩

theorem runless_takeFlags (r : Reading) (rule : SeparatorRule) (flags : List (Flag × List Char)) :
    Runless (r.takeFlags rule flags) := by
  refine Runless.map ?_ _
  unfold Settings.setAll
  generalize r.settings = settings
  induction flags generalizing settings with
  | nil => exact runless_ok _
  | cons pair flags ih =>
    rw [List.foldlM_cons]
    exact (runless_set settings rule pair.1 pair.2).bind ih

theorem runless_clusterAttached (flag : Flag) (short : Bool) (attached : List Char) :
    Runless (clusterAttached flag short attached) := by
  fun_induction clusterAttached flag short attached with
  | case6 flag c rest _ next _ _ ih => exact ih.map _
  | _ => rintro settings ⟨⟩

theorem runless_cluster (flag : Flag) (short : Bool) (attached : Option (List Char)) :
    Runless (cluster flag short attached) := by
  cases attached with
  | none => exact runless_ok _
  | some attached => exact runless_clusterAttached flag short attached

theorem runless_gather (flag : Flag) (short : Bool) (attached : Option (List Char))
    (rest : List Argument) : Runless (gather flag short attached rest) := by
  refine (runless_cluster flag short attached).bind fun c => ?_
  split <;> rintro settings ⟨⟩

theorem runless_take (r : Reading) (rule : SeparatorRule) (behindFile : Bool)
    (arguments : List Argument) :
    Runless (r.take rule behindFile arguments) := by
  match arguments with
  | [] => exact runless_ok _
  | .plain text :: rest => exact runless_take (r.takePlain text) rule (!r.fileTaken) rest
  | .separator :: rest =>
    rw [Reading.take]
    split
    · exact runless_take (r.addExtra separator) rule false rest
    · exact runless_take r rule false rest
  | .unknown text :: rest => exact runless_take (r.addExtra text) rule false rest
  | .flag flag short attached :: rest =>
    rw [Reading.take_flag]
    cases hgather : gather flag short attached rest with
    | error request =>
      rintro settings ⟨⟩
      exact runless_gather flag short attached rest settings hgather
    | ok gathered =>
      have hlength := length_of_gather hgather
      exact (runless_takeFlags r rule _).bind fun r => runless_take r rule false gathered.2
termination_by arguments.length

/-- A call asks for a run if its arguments are sorted and taken and all of them mean something. -/
theorem request_eq_run_iff {rule : SeparatorRule} {arguments : List String} {settings : Settings} :
    requestUnder rule arguments = .run settings ↔
      ∃ sorted r, Argument.sortAll arguments = .ok sorted ∧
        Reading.start.take rule false sorted = .ok r ∧ r.extras = [] ∧ r.settings = settings := by
  unfold requestUnder
  constructor
  · intro h
    split at h
    · cases h
    · rename_i sorted hsort
      split at h
      · rename_i htake
        exact absurd (htake.trans (congrArg _ h)) (runless_take _ _ _ _ settings)
      · rename_i r htake
        split at h
        · rename_i hextras
          exact ⟨sorted, r, hsort, htake, hextras, Request.run.inj h⟩
        · cases h
  · rintro ⟨sorted, r, hsort, htake, hextras, rfl⟩
    rw [hsort]
    dsimp only
    rw [htake]
    dsimp only
    rw [if_pos hextras]

/-! ## Changes before and after the arguments -/

/-- A change of the settings that comes to the same before and after any argument has been taken. -/
structure Settings.Presets (change : Settings → Settings) : Prop where
  set : ∀ settings rule flag value,
    (change settings).set rule flag value = (settings.set rule flag value).map change
  file : ∀ (settings : Settings) file, change { settings with file } = { change settings with file }

/-- A reading whose settings have been changed. -/
def Reading.preset (change : Settings → Settings) (r : Reading) : Reading :=
  { r with settings := change r.settings }

section

variable {change : Settings → Settings} (hchange : Settings.Presets change)
include hchange

theorem Settings.setAll_preset (settings : Settings) (rule : SeparatorRule)
    (flags : List (Flag × List Char)) :
    (change settings).setAll rule flags = (settings.setAll rule flags).map change := by
  unfold setAll
  induction flags generalizing settings with
  | nil => rfl
  | cons pair flags ih =>
    obtain ⟨flag, value⟩ := pair
    simp only [List.foldlM_cons, hchange.set]
    cases settings.set rule flag value with
    | error request => rfl
    | ok settings => exact ih settings

theorem Reading.takePlain_preset (r : Reading) (text : List Char) :
    (r.preset change).takePlain text = (r.takePlain text).preset change := by
  unfold takePlain
  rw [show (r.preset change).fileTaken = r.fileTaken from rfl]
  split
  · rfl
  · exact congrArg (fun settings => Reading.mk settings true r.extras) (hchange.file ..).symm

theorem Reading.takeFlags_preset (r : Reading) (rule : SeparatorRule)
    (flags : List (Flag × List Char)) :
    (r.preset change).takeFlags rule flags = (r.takeFlags rule flags).map (preset change) := by
  unfold takeFlags
  rw [show (r.preset change).settings = change r.settings from rfl,
    Settings.setAll_preset hchange]
  cases r.settings.setAll rule flags <;> rfl

/-- Arguments are taken the same way whether the change has been made or not. -/
theorem Reading.take_preset (r : Reading) (rule : SeparatorRule) (behindFile : Bool)
    (arguments : List Argument) :
    (r.preset change).take rule behindFile arguments =
      (r.take rule behindFile arguments).map (preset change) := by
  match arguments with
  | [] => rfl
  | .plain text :: rest =>
    rw [take, take, takePlain_preset hchange]
    exact take_preset _ _ _ rest
  | .separator :: rest =>
    rw [take, take, show (r.preset change).fileTaken = r.fileTaken from rfl]
    split
    · exact take_preset (r.addExtra separator) rule false rest
    · exact take_preset r rule false rest
  | .unknown text :: rest => exact take_preset (r.addExtra text) rule false rest
  | .flag flag short attached :: rest =>
    rw [take_flag, take_flag]
    cases hgather : gather flag short attached rest with
    | error request => rfl
    | ok gathered =>
      have hlength := length_of_gather hgather
      dsimp only [bind, Except.bind]
      rw [takeFlags_preset hchange]
      cases r.takeFlags rule gathered.1 with
      | error request => rfl
      | ok r => exact take_preset r rule false gathered.2
termination_by arguments.length

end

/-! ## Arguments behind others -/

/-- Arguments that are complete are taken before those behind them. -/
theorem Reading.take_append {r₁ : Reading} (r : Reading) (rule : SeparatorRule)
    (behindFile : Bool) (front : List Argument) (h : r.take rule behindFile front = .ok r₁) :
    ∃ behindFile₁, ∀ rest, r.take rule behindFile (front ++ rest) = r₁.take rule behindFile₁ rest := by
  match front with
  | [] =>
    cases h
    exact ⟨behindFile, fun rest => rfl⟩
  | .plain text :: front => exact take_append (r.takePlain text) rule (!r.fileTaken) front h
  | .separator :: front =>
    rw [take] at h
    simp only [List.cons_append, take]
    split at h <;> rename_i hbehind
    · simp only [if_pos hbehind]
      exact take_append (r.addExtra separator) rule false front h
    · simp only [if_neg hbehind]
      exact take_append r rule false front h
  | .unknown text :: front => exact take_append (r.addExtra text) rule false front h
  | .flag flag short attached :: front =>
    rw [take_flag] at h
    simp only [List.cons_append, take_flag]
    cases hgather : gather flag short attached front with
    | error request =>
      rw [hgather] at h
      cases h
    | ok gathered =>
      have hlength := length_of_gather hgather
      rw [hgather] at h
      simp only [gather_append hgather, bind, Except.bind] at h ⊢
      cases hflags : r.takeFlags rule gathered.1 with
      | error request =>
        rw [hflags] at h
        cases h
      | ok r' =>
        rw [hflags] at h
        exact take_append r' rule false gathered.2 h
termination_by front.length

/-- Whether the file has just been taken is of interest to a separator only. -/
theorem Reading.take_behindFile (r : Reading) (rule : SeparatorRule)
    (behindFile behindFile' : Bool) {rest : List Argument} (h : rest.head? ≠ some .separator) :
    r.take rule behindFile rest = r.take rule behindFile' rest := by
  match rest with
  | [] | .plain _ :: _ | .unknown _ :: _ | .flag _ _ _ :: _ => simp only [take]
  | .separator :: _ => exact absurd rfl h

namespace Argument

/-- Arguments before any separator are sorted one by one. -/
theorem sortAll_append {front : List String} (h : "--" ∉ front) (rest : List String) :
    sortAll (front ++ rest) =
      (do let sorted ← sortAll front
          let others ← sortAll rest
          pure (sorted ++ others)) := by
  induction front with
  | nil =>
    rw [List.nil_append]
    cases sortAll rest <;> rfl
  | cons text front ih =>
    have htext : text ≠ "--" := fun htext => h (htext ▸ List.mem_cons_self)
    rw [List.cons_append, sortAll, sortAll, if_neg htext, if_neg htext,
      ih fun hfront => h (List.mem_cons_of_mem _ hfront)]
    cases sort text.toList with
    | error message => rfl
    | ok argument =>
      cases sortAll front with
      | error message => rfl
      | ok sorted => cases sortAll rest <;> rfl

/-- An argument that may mean a flag is no separator. -/
theorem ne_separator_of_mem_candidates {text : List Char} {candidate : String × Argument}
    (h : candidate ∈ candidates text) : candidate.2 ≠ .separator := by
  unfold candidates at h
  split at h <;> obtain ⟨_, _, rfl⟩ := List.mem_map.1 h <;> exact nofun

theorem guess_ne_separator (text : List Char) : guess text ≠ .ok .separator := by
  unfold guess
  split
  case h_1 spelling argument hcandidates =>
    intro h
    have hmem : (spelling, argument) ∈ candidates text := by
      rw [hcandidates]
      exact List.mem_singleton_self _
    exact ne_separator_of_mem_candidates hmem (Except.ok.inj h)
  case h_2 => split <;> exact nofun
  case h_3 => exact nofun

/-- Only the separator itself is sorted as one. -/
theorem sort_ne_separator (text : List Char) : sort text ≠ .ok .separator := by
  unfold sort
  split
  · split
    · exact nofun
    · split
      · split
        · exact nofun
        · exact guess_ne_separator _
      · exact guess_ne_separator _
  · exact nofun

theorem head?_sortAll {arguments : List String} {sorted : List Argument} (h : "--" ∉ arguments)
    (hsort : sortAll arguments = .ok sorted) : sorted.head? ≠ some .separator := by
  cases arguments with
  | nil =>
    cases hsort
    exact nofun
  | cons text rest =>
    have htext : text ≠ "--" := fun htext => h (htext ▸ List.mem_cons_self)
    rw [sortAll, if_neg htext] at hsort
    cases hfirst : sort text.toList with
    | error message =>
      rw [hfirst] at hsort
      cases hsort
    | ok argument =>
      rw [hfirst] at hsort
      cases hrest : sortAll rest with
      | error message =>
        rw [hrest] at hsort
        cases hsort
      | ok others =>
        rw [hrest] at hsort
        cases hsort
        rintro ⟨⟩
        exact sort_ne_separator _ hfirst

end Argument

/-! ## A program among other arguments -/

/-- The settings with a program, unless they have one. -/
def Settings.given (text : String) (settings : Settings) : Settings :=
  { settings with expr := settings.expr.or (some text) }

theorem Settings.given_presets (text : String) : Presets (given text) where
  set settings rule flag value := by
    cases flag with
    | tabSize | maxDepth =>
      unfold set
      cases integerSetting _ (rule.value? value) <;> rfl
    | _ => rfl
  file _ _ := rfl

/-- A program that has been given is not taken back. -/
theorem Reading.expr_of_take {r r' : Reading} {rule : SeparatorRule} {behindFile : Bool}
    {arguments : List Argument} (h : r.take rule behindFile arguments = .ok r') (hexpr : r'.settings.expr = none) :
    r.settings.expr = none := by
  cases hr : r.settings.expr with
  | none => rfl
  | some text =>
    -- given another time, the program is the same
    have hagain : r.preset (.given text) = r := by
      unfold preset Settings.given
      rw [hr, Option.some_or, ← hr]
    have hpreset := take_preset (Settings.given_presets text) r rule behindFile arguments
    rw [hagain, h] at hpreset
    have hr' : r'.settings.expr = r'.settings.expr.or (some text) :=
      congrArg (fun r => r.settings.expr) (Except.ok.inj hpreset)
    rw [hexpr] at hr'
    cases hr'

/-- The argument that gives a program. -/
def exprArgument (text : List Char) : String :=
  "--expr=" ++ String.ofList text

namespace Argument

/-- No spelling of a flag has an equals sign in it. -/
theorem ofSpelling?_eq_none {text : List Char} (h : '=' ∈ text) : Flag.ofSpelling? text = none := by
  have hspellings : ∀ pair ∈ Flag.spellings, '=' ∉ pair.1.toList := by decide
  refine List.lookup_eq_none_iff.2 fun pair hpair => bne_iff_ne.2 fun hspelling => ?_
  refine hspellings pair hpair ?_
  rw [← hspelling, String.toList_ofList]
  exact h

theorem sort_exprArgument (text : List Char) :
    sort (exprArgument text).toList = .ok (.flag .expr false (some text)) := by
  have htext : (exprArgument text).toList = '-' :: '-' :: ("expr=".toList ++ text) := by
    simp [exprArgument]
  have hnone : Flag.ofSpelling? ('-' :: '-' :: ("expr=".toList ++ text)) = none :=
    ofSpelling?_eq_none (by simp)
  have hsplit : splitEquals ('-' :: '-' :: ("expr=".toList ++ text)) =
      ("--expr".toList, some text) := rfl
  have hexpr : Flag.ofSpelling? "--expr".toList = some .expr := by decide
  rw [htext]
  unfold sort
  rw [hnone, hsplit]
  dsimp only
  rw [hexpr]
  rfl

end Argument

/-- Only where the rule drops it, a separator is no value. -/
theorem SeparatorRule.value?_eq_some {rule : SeparatorRule} {value : List Char}
    (h : rule = .kept ∨ value ≠ separator) : rule.value? value = some value := by
  refine if_neg ?_
  rintro ⟨rfl, rfl⟩
  rcases h with hrule | hvalue
  · cases hrule
  · exact hvalue rfl

/-- A program is taken as its argument has it, unless it is dropped. -/
theorem Reading.take_expr {rule : SeparatorRule} {text : List Char}
    (h : rule = .kept ∨ text ≠ separator) (r : Reading) (behindFile : Bool) (rest : List Argument) :
    r.take rule behindFile (.flag .expr false (some text) :: rest) =
      { r with settings := { r.settings with expr := some (String.ofList text) } }.take rule false rest := by
  have hcluster : cluster .expr false (some text) = .ok ⟨[(.expr, text)], none⟩ := by
    cases text <;> rfl
  have hset : r.settings.set rule .expr text =
      .ok { r.settings with expr := some (String.ofList text) } := by
    unfold Settings.set
    rw [SeparatorRule.value?_eq_some h]
    rfl
  have hflags : r.takeFlags rule [(.expr, text)] =
      .ok { r with settings := { r.settings with expr := some (String.ofList text) } } := by
    unfold takeFlags Settings.setAll
    simp only [List.foldlM_cons, hset]
    rfl
  rw [take, hcluster]
  dsimp only [bind, Except.bind]
  rw [hflags]

theorem exprArgument_ne_separator (text : List Char) : exprArgument text ≠ "--" := by
  intro h
  have hlist := congrArg String.toList h
  simp [exprArgument] at hlist

/-- A program given among other arguments that ask for a run without one is run with the settings of
these. -/
theorem request_exprArgument {rule : SeparatorRule} {before after : List String}
    {settings₀ settings : Settings} {text : List Char}
    (hbefore : requestUnder rule before = .run settings₀)
    (hothers : requestUnder rule (before ++ after) = .run settings) (hexpr : settings.expr = none)
    (hseparator : "--" ∉ before ++ after) (htext : rule = .kept ∨ text ≠ separator) :
    requestUnder rule (before ++ exprArgument text :: after) =
      .run { settings with expr := some (String.ofList text) } := by
  obtain ⟨front, r₁, hfront, hr₁, -, -⟩ := request_eq_run_iff.1 hbefore
  obtain ⟨sorted, r₂, hsorted, hr₂, hextras, rfl⟩ := request_eq_run_iff.1 hothers
  have hfrontSeparator : "--" ∉ before := fun h => hseparator (List.mem_append_left _ h)
  have hrestSeparator : "--" ∉ after := fun h => hseparator (List.mem_append_right _ h)
  obtain ⟨rest, hrest, rfl⟩ : ∃ rest, Argument.sortAll after = .ok rest ∧ sorted = front ++ rest := by
    rw [Argument.sortAll_append hfrontSeparator, hfront] at hsorted
    cases hafter : Argument.sortAll after with
    | error message =>
      rw [hafter] at hsorted
      cases hsorted
    | ok rest =>
      rw [hafter] at hsorted
      cases hsorted
      exact ⟨rest, rfl, rfl⟩
  obtain ⟨behindFile, hbehind⟩ := Reading.take_append .start rule false front hr₁
  have htake : r₁.take rule behindFile rest = .ok r₂ := (hbehind rest).symm.trans hr₂
  have hgiven : { r₁ with settings := { r₁.settings with expr := some (String.ofList text) } } =
      r₁.preset (.given (String.ofList text)) := by
    unfold Reading.preset Settings.given
    rw [Reading.expr_of_take htake hexpr, Option.none_or]
  have hrequest : requestUnder rule (before ++ exprArgument text :: after) =
      .run (r₂.preset (.given (String.ofList text))).settings := by
    refine request_eq_run_iff.2 ⟨front ++ .flag .expr false (some text) :: rest,
      r₂.preset (.given (String.ofList text)), ?_, ?_, hextras, rfl⟩
    · rw [Argument.sortAll_append hfrontSeparator, hfront, Argument.sortAll,
        if_neg (exprArgument_ne_separator text), Argument.sort_exprArgument, hrest]
      rfl
    · rw [hbehind, Reading.take_expr htext, hgiven,
        Reading.take_behindFile _ rule false behindFile (Argument.head?_sortAll hrestSeparator hrest),
        Reading.take_preset (Settings.given_presets _), htake]
      rfl
  rw [hrequest]
  unfold Reading.preset Settings.given
  rw [hexpr, Option.none_or]

end ExprFront.Cli
