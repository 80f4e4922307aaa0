import ExprFront.Cli.Usage
import ExprFront.Number.Numeral

/-!
# Reading the command line

Arguments are first sorted into flags and plain ones, then taken from left to right. A long flag
may be cut short as long as one flag is meant, a value may follow in the same argument, and short
flags may share one. The first plain argument is the file; any others are reported at the end, with
the flags that do not exist. Asking for help or for the version ends the reading at once.
-/

namespace ExprFront.Cli

/-- What a call asks for. -/
inductive Request where
  | run (settings : Settings)
  | help
  | version
  | invalid (message : String)
  deriving DecidableEq

/-! ## Sorting the arguments -/

/-- What an argument is; to a flag a text may be attached, directly or behind an equals sign. -/
inductive Argument where
  | plain (text : List Char)
  | separator
  | flag (flag : Flag) (short : Bool) (attached : Option (List Char))
  | unknown (text : List Char)
  deriving DecidableEq

namespace Argument

/-- The text before the first equals sign, and the text behind it. -/
def splitEquals (text : List Char) : List Char × Option (List Char) :=
  match text.dropWhile (· ≠ '=') with
  | [] => (text, none)
  | _ :: value => (text.takeWhile (· ≠ '='), some value)

/-- Is the text a minus sign with a number in plain decimals? One line break may follow. -/
def isNegativeNumber (text : List Char) : Bool :=
  let isDecimal := fun c => (digitValue? c).isSome
  match text with
  | '-' :: body =>
    let body := if body.getLast? = some '\n' then body.dropLast else body
    match body.dropWhile isDecimal with
    | [] => body ≠ []
    | '.' :: fraction => fraction ≠ [] && fraction.all isDecimal
    | _ => false
  | _ => false

/-- The flags that an argument with a leading minus may mean without naming one in full, each with
its spelling. -/
def candidates (text : List Char) : List (String × Argument) :=
  match text with
  | '-' :: '-' :: _ =>
    let (name, attached) := splitEquals text
    (Flag.spellings.filter fun (spelling, _) => name.isPrefixOf spelling.toList).map
      fun (spelling, f) => (spelling, .flag f false attached)
  | _ =>
    (Flag.spellings.filter fun (spelling, _) => spelling.toList = text.take 2).map
      fun (spelling, f) => (spelling, .flag f true (some (text.drop 2)))

/-- Is the spelling of a flag a short one? -/
def isShort (spelling : List Char) : Bool :=
  !(['-', '-'].isPrefixOf spelling)

/-- An argument that names no flag in full. -/
def guess (text : List Char) : Except String Argument :=
  match candidates text with
  | [(_, argument)] => .ok argument
  | [] =>
    if isNegativeNumber text || text.contains ' ' then .ok (.plain text) else .ok (.unknown text)
  | several =>
    let names := ", ".intercalate (several.map (·.1))
    .error s!"ambiguous option: {String.ofList text} could match {names}"

/-- What an argument before the separator is. -/
def sort (text : List Char) : Except String Argument :=
  match text with
  | '-' :: _ :: _ =>
    match Flag.ofSpelling? text with
    | some f => .ok (.flag f (isShort text) none)
    | none =>
      match splitEquals text with
      | (name, some attached) =>
        match Flag.ofSpelling? name with
        | some f => .ok (.flag f (isShort name) (some attached))
        | none => guess text
      | _ => guess text
  | _ => .ok (.plain text)

/-- What each argument is. Behind the first separator all are plain. -/
def sortAll : List String → Except String (List Argument)
  | [] => .ok []
  | text :: rest =>
    if text = "--" then .ok (.separator :: rest.map fun t => .plain t.toList)
    else do
      let argument ← sort text.toList
      let others ← sortAll rest
      pure (argument :: others)

end Argument

/-! ## Taking flags -/

/-- An error about a flag. -/
def flagError (flag : Flag) (text : String) : Request :=
  .invalid s!"argument {flag.title}: {text}"

/-- The error for a value attached to a flag that takes none. -/
def ignoredValue (flag : Flag) (value : List Char) : Request :=
  flagError flag s!"ignored explicit argument {quoted (String.ofList value)}"

/-- The flags of one argument: those that are complete, with their values, and one that waits for
its value. -/
structure Cluster where
  complete : List (Flag × List Char)
  waiting : Option Flag

/-- A flag without anything attached. -/
def Cluster.single (flag : Flag) : Cluster :=
  if flag.takesValue then ⟨[], some flag⟩ else ⟨[(flag, [])], none⟩

/-- A cluster with one more complete flag in front. -/
def Cluster.cons (flag : Flag) (cluster : Cluster) : Cluster :=
  { cluster with complete := (flag, []) :: cluster.complete }

/-- Takes apart a flag with a text attached. It is the value of a flag that takes one; to a short
flag that takes none, it attaches further short flags. -/
def clusterAttached (flag : Flag) (short : Bool) : List Char → Except Request Cluster
  | [] => if flag.takesValue then .ok ⟨[(flag, [])], none⟩ else .error (ignoredValue flag [])
  | c :: rest =>
    if flag.takesValue then .ok ⟨[(flag, c :: rest)], none⟩
    else if short then
      match Flag.ofSpelling? ['-', c] with
      | none => .error (ignoredValue flag (c :: rest))
      | some next =>
        if rest.isEmpty then .ok (.cons flag (.single next))
        else (clusterAttached next true rest).map (.cons flag)
    else .error (ignoredValue flag (c :: rest))

/-- The flags of one argument. -/
def cluster (flag : Flag) (short : Bool) : Option (List Char) → Except Request Cluster
  | none => .ok (.single flag)
  | some attached => clusterAttached flag short attached

/-- The integer of a flag's value. -/
def integerFor (flag : Flag) (value : List Char) : Except Request Int :=
  match Numeral.integer? value with
  | some n => .ok n
  | none => .error (flagError flag s!"invalid int value: {quoted (String.ofList value)}")

/-- The text that separates flags from plain arguments. -/
def separator : List Char := ['-', '-']

/-- What becomes of the separator where it is attached to a flag as its value. Releases of the reader
of arguments differ in this. -/
inductive SeparatorRule where
  | dropped
  | kept
  deriving DecidableEq

/-- The value of a flag, unless it is dropped. -/
def SeparatorRule.value? (rule : SeparatorRule) (value : List Char) : Option (List Char) :=
  if rule = .dropped ∧ value = separator then none else some value

/-- The setting of an integer to the value of its flag. It is missing if the value is dropped. -/
def integerSetting (flag : Flag) : Option (List Char) → Except Request (Option Int)
  | none => .ok none
  | some value => (integerFor flag value).map some

/-- Sets a flag, to its value if it takes one. A program whose value is dropped is empty. -/
def Settings.set (settings : Settings) (rule : SeparatorRule) (flag : Flag) (value : List Char) :
    Except Request Settings :=
  match flag with
  | .help => .error .help
  | .version => .error .version
  | .tokens => .ok { settings with tokens := true }
  | .json => .ok { settings with json := true }
  | .verbose => .ok { settings with verbose := true }
  | .expr => .ok { settings with expr := some (String.ofList ((rule.value? value).getD [])) }
  | .tabSize =>
    (integerSetting flag (rule.value? value)).map fun tabSize => { settings with tabSize }
  | .maxDepth =>
    (integerSetting flag (rule.value? value)).map fun maxDepth => { settings with maxDepth }

/-- Sets flags in their order. -/
def Settings.setAll (settings : Settings) (rule : SeparatorRule)
    (flags : List (Flag × List Char)) : Except Request Settings :=
  flags.foldlM (fun settings (flag, value) => settings.set rule flag value) settings

/-! ## Taking all arguments -/

/-- Settings under way: what has been asked for, whether the file is settled, and the arguments
that mean nothing. -/
structure Reading where
  settings : Settings
  fileTaken : Bool
  extras : List String

namespace Reading

/-- Before the first argument. -/
def start : Reading := ⟨.default, false, []⟩

/-- Keeps an argument that means nothing. -/
def addExtra (r : Reading) (text : List Char) : Reading :=
  { r with extras := r.extras ++ [String.ofList text] }

/-- Takes a plain argument: the file, unless there is one. -/
def takePlain (r : Reading) (text : List Char) : Reading :=
  if r.fileTaken then r.addExtra text
  else { r with settings := { r.settings with file := some (String.ofList text) },
                fileTaken := true }

/-- Takes the flags of one argument. -/
def takeFlags (r : Reading) (rule : SeparatorRule) (flags : List (Flag × List Char)) :
    Except Request Reading :=
  (r.settings.setAll rule flags).map fun settings => { r with settings }

/-- Takes the arguments from left to right. A flag that waits for its value takes the next
argument, which has to be plain. A separator before the file or directly behind it, `behindFile`,
means nothing. -/
def take (r : Reading) (rule : SeparatorRule) (behindFile : Bool) :
    List Argument → Except Request Reading
  | [] => .ok r
  | .plain text :: rest => (r.takePlain text).take rule (!r.fileTaken) rest
  | .separator :: rest =>
    if r.fileTaken && !behindFile then (r.addExtra separator).take rule false rest
    else r.take rule false rest
  | .unknown text :: rest => (r.addExtra text).take rule false rest
  | .flag flag short attached :: rest => do
    let c ← cluster flag short attached
    match c.waiting with
    | none =>
      let r ← r.takeFlags rule c.complete
      r.take rule false rest
    | some last =>
      match rest with
      | .plain value :: rest =>
        let r ← r.takeFlags rule (c.complete ++ [(last, value)])
        r.take rule false rest
      | _ => .error (flagError last "expected one argument")

end Reading

/-- What a command line asks for under a rule for attached separators. -/
def requestUnder (rule : SeparatorRule) (arguments : List String) : Request :=
  match Argument.sortAll arguments with
  | .error message => .invalid message
  | .ok sorted =>
    match Reading.start.take rule false sorted with
    | .error request => request
    | .ok r =>
      if r.extras = [] then .run r.settings
      else
        let extras := " ".intercalate r.extras
        .invalid s!"unrecognized arguments: {extras}"

/-- What a command line asks for where attached separators are dropped. -/
def request (arguments : List String) : Request :=
  requestUnder .dropped arguments

end ExprFront.Cli
