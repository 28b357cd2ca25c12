/-
The settings of a run, from the options of its command line.

Values are checked in the order in which their options were first given; of an option given more
than once the last value counts, except that every analyzer counts.  Help and version are looked
for before anything else is checked, and extra arguments are refused after everything else.
-/
import LintHost.Command.Options
import LintHost.Workspace
import LintHost.Report.Format

namespace LintHost.Command

/-- What a run was asked for. -/
structure Settings where
  analyzers : List String := []
  target : String := ""
  format : Option Report.Format := none
  verbose : Bool := false
  quiet : Bool := false
  output : Option String := none
  jobs : Option Int := none
  config : Option String := none
deriving DecidableEq, Repr, Inhabited

/-- What a command line comes to. -/
inductive Request where
  | help
  | version
  | run (s : Settings)
deriving DecidableEq, Repr

/-- Why a command line comes to nothing: it is wrong, or a path in it cannot be looked at. -/
inductive Refusal where
  | usage (p : UsageProblem)
  | failure (f : Failure)
deriving DecidableEq, Repr

/-- The names of an option, as messages list them. -/
def optionNames (o : Opt) : String :=
  match o.letter with
  | some c => "'" ++ o.long ++ "' / '" ++ String.ofList ['-', c] ++ "'"
  | none => "'" ++ o.long ++ "'"

/-- A value that an option does not take. -/
def badValue {α : Type} (o : Opt) (why : String) : Except Refusal α :=
  .error (.usage (.badValue (optionNames o) why))

/-- What a path has to be. -/
structure PathNeed where
  /-- How messages call it. -/
  noun : String
  mustExist : Bool
  allowsDirectory : Bool

/-- Checks a path. -/
def checkPath (w : Workspace) (o : Opt) (need : PathNeed) (s : String) : Except Refusal String :=
  match Workspace.pathFault? s, w.locateText s with
  | some f, _ => .error (.failure f)
  | none, .error _ =>
    if need.mustExist then
      badValue o (need.noun ++ " " ++ quotedString (Text.shownPath s) ++ " does not exist.")
    else .ok s
  | none, .ok (_, t) =>
    if t.isDir && !need.allowsDirectory then
      badValue o (need.noun ++ " " ++ quotedString (Text.shownPath s) ++ " is a directory.")
    else .ok s

/-- A letter for comparing names in any letter case. -/
def foldLetter (c : Char) : Char := if c.toNat == 0x17F then 's' else c.toLower

/-- Checks the name of a format. -/
def checkFormat (s : String) : Except Refusal Report.Format :=
  let word := s.toList.map foldLetter
  match Report.Format.all.find? fun f => f.name.toList == word with
  | some f => .ok f
  | none =>
    let names := ", ".intercalate (Report.Format.all.map fun f => quotedString f.name)
    badValue .format (quotedString s ++ " is not one of " ++ names ++ ".")

/-- Checks a number of jobs. -/
def checkJobs (s : String) : Except Refusal Int :=
  match Text.readInteger 10 s.toList with
  | none => badValue .jobs (quotedString s ++ " is not a valid integer range.")
  | some n =>
    if n < 1 then badValue .jobs (integerString n ++ " is not in the range x>=1.") else .ok n

/-- Takes the values of an option into the settings. -/
def take (w : Workspace) (o : Opt) (values : List String) (s : Settings) :
    Except Refusal Settings := do
  let last := values.getLast?.getD ""
  match o with
  | .analyzers =>
    let paths ← values.mapM (checkPath w o ⟨"Path", false, true⟩)
    .ok { s with analyzers := paths }
  | .target =>
    if values.isEmpty then .error (.usage (.missing o.long))
    else .ok { s with target := ← checkPath w o ⟨"Path", true, true⟩ last }
  | .format =>
    if values.isEmpty then .ok s else .ok { s with format := some (← checkFormat last) }
  | .verbose => .ok { s with verbose := !values.isEmpty }
  | .quiet => .ok { s with quiet := !values.isEmpty }
  | .output =>
    if values.isEmpty then .ok s
    else .ok { s with output := some (← checkPath w o ⟨"File", false, false⟩ last) }
  | .jobs => if values.isEmpty then .ok s else .ok { s with jobs := some (← checkJobs last) }
  | .config =>
    if values.isEmpty then .ok s
    else .ok { s with config := some (← checkPath w o ⟨"File", true, false⟩ last) }
  | .version | .help => .ok s

/-- The options in the order in which they are checked: as they were first given, and then those
that were not given. -/
def checkOrder (given : List Given) : List Opt :=
  let first := (given.map (·.option)).foldl (fun os o => if os.contains o then os else os ++ [o]) []
  first ++ Opt.all.filter fun o => !first.contains o

/-- The values given for an option. -/
def valuesOf (o : Opt) (given : List Given) : List String :=
  (given.filter fun g => g.option == o).map (·.value)

/-- What a command line comes to. -/
def request (w : Workspace) (args : List String) : Except Refusal Request := do
  let p ← (parse args).mapError .usage
  match p.given.find? fun g => g.option.isEager with
  | some g => .ok (if g.option = .help then .help else .version)
  | none =>
    let s ← (checkOrder p.given).foldlM (fun s o => take w o (valuesOf o p.given) s) {}
    if p.extra.isEmpty then .ok (.run s) else .error (.usage (.extra p.extra))

/-! ### Messages -/

/-- The problem in words. -/
def UsageProblem.message : UsageProblem → String
  | .unknown name similar =>
    let names := similar.map quotedString
    "No such option " ++ quotedString name ++ "."
      ++ (match names with
          | [] => ""
          | [n] => " Did you mean " ++ n ++ "?"
          | ns => " (Did you mean one of: " ++ ", ".intercalate ns ++ "?)")
  | .needsValue name => "Option " ++ quotedString name ++ " requires an argument."
  | .takesNoValue name => "Option " ++ quotedString name ++ " does not take a value."
  | .missing name => "Missing option '" ++ name ++ "'."
  | .extra arguments =>
    "Got unexpected extra argument" ++ (if arguments.length = 1 then " (" else "s (")
      ++ " ".intercalate arguments ++ ")"
  | .badValue names why => "Invalid value for " ++ names ++ ": " ++ why
  | .other text => text

/-- Whether the usage is recalled above the message. -/
def UsageProblem.recallsUsage : UsageProblem → Bool
  | .needsValue _ | .takesNoValue _ => false
  | _ => true

/-- The text about a wrong command line. -/
def UsageProblem.text (p : UsageProblem) : String :=
  (if p.recallsUsage then
    "Usage: lintkit [OPTIONS]\nTry 'lintkit --help' for help.\n\n" else "")
    ++ "Error: " ++ p.message ++ "\n"

/-- The text of the version. -/
def versionText : String := "lintkit, version " ++ Report.toolVersion ++ "\n"

/-- The text of the help. -/
def helpText : String :=
  "Usage: lintkit [OPTIONS]\n\n"
  ++ "  LintKit: run analyzer plugins over source files and report violations.\n\n"
  ++ "Options:\n"
  ++ "  --analyzers PATH          Path to an analyzer module (repeatable).\n"
  ++ "  --target PATH             Solution, project, directory or file to analyze.\n"
  ++ "                            [required]\n"
  ++ "  --format [text|sarif]     Output format: text (default) or sarif.\n"
  ++ "  -v, --verbose             Enable verbose output.\n"
  ++ "  -q, --quiet               Enable quiet output (minimal).\n"
  ++ "  -o, --output FILE         Write the report to this file instead of stdout.\n"
  ++ "  -j, --jobs INTEGER RANGE  Number of worker threads running analyzers.  [x>=1]\n"
  ++ "  --config FILE             Path to a project config file.\n"
  ++ "  --version                 Show the version and exit.\n"
  ++ "  -h, --help                Show this message and exit.\n"

end LintHost.Command
