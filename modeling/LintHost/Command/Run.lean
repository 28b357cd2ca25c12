/-
The command as a whole.

A run first settles everything that can be refused: its command line, its configuration, its
report format and its list of analyzers.  Then it loads the analyzers, runs them over the target
and reports, on the console or into a file.  A refusal changes nothing and prints only the reason;
a failure later on keeps what was printed before it.  `Outcome` holds all that a run leaves behind.
What is printed is printed without control sequences; a file gets the report as it is.
-/
import LintHost.Command.Settings
import LintHost.Config.Layers
import LintHost.Engine
import LintHost.ExitStatus
import LintHost.Plugin.Loader
import LintHost.Text.ControlSequence

namespace LintHost.Command

/-- What a run leaves behind. -/
structure Outcome where
  status : Nat
  stdout : String
  stderr : String
  /-- The failure that ended the run, if it was not turned into a message. -/
  escaped : Option Failure
  events : List Event
  workspace : Workspace
  modules : Plugin.Modules
  /-- The path of the file that the report was written to, and its text. -/
  saved : Option (String × String)

/-- What is settled before any analyzer is loaded. -/
structure Plan where
  targets : TargetsConfig
  engine : EngineConfig
  format : Report.Format
  paths : List String
deriving DecidableEq, Repr

/-- The format that the settings or else the configuration names. -/
def chooseFormat (s : Settings) (c : OutputConfig) : Except Failure Report.Format :=
  match s.format with
  | some f => .ok f
  | none =>
    match Report.Format.ofName? c.format with
    | some f => .ok f
    | none => .error (.unknownFormat c.format)

/-- A section of the configuration, checked. -/
def checkedSection {α : Type} (name model : String)
    (check : List (Value × Value) → Check α) (entries : Config.Entries) : Except Failure α :=
  let es := Config.sectionEntries name entries
  let isText : Value → Bool
    | .str _ => true
    | _ => false
  if es.all fun e => isText e.1 then
    match check es with
    | .ok a => .ok a
    | .bad problems => .error (.invalid model problems)
  else .error .keyNotText

/-- Settles a run. -/
def plan (w : Workspace) (s : Settings) : Journal Plan := do
  let entries ← Config.load w "." s.config
  Journal.of do
    let targets ← checkedSection "targets" "TargetsConfig" TargetsConfig.checkFields entries
    let engine ← checkedSection "engine" "EngineConfig" EngineConfig.checkFields entries
    let output ← checkedSection "output" "OutputConfig" OutputConfig.checkFields entries
    let format ← chooseFormat s output
    let listed ← Config.listedAnalyzers w.interpreter.toLimits entries
    .ok ⟨targets, engine, format, listed ++ s.analyzers⟩

/-- Whether a failure to settle a run is told as a wrong use of the command. -/
def isRefusal : Failure → Bool
  | .config _ | .unknownFormat _ | .invalid _ _ | .load _ => true
  | _ => false

/-- The least number of the events that a run with these settings shows. -/
def threshold (s : Settings) : Nat :=
  if s.verbose then Level.info.number
  else if s.quiet then Level.error.number
  else Level.warning.number

/-- The events that a run with these settings shows. -/
def shown (s : Settings) (events : List Event) : List Event :=
  events.filter fun e => threshold s ≤ e.level.number

/-- Lines about the progress, unless the run is quiet. -/
def progress (s : Settings) (lines : List String) : String :=
  if s.quiet then "" else String.join (lines.map fun l => l ++ "\n")

/-- The lines at the beginning of a run. -/
def opening (s : Settings) (p : Plan) : List String :=
  ("LintKit v" ++ Report.toolVersion) ::
    if s.verbose then
      ["Analyzers: " ++ ", ".intercalate p.paths, "Target: " ++ s.target,
       "Format: " ++ p.format.name]
    else []

/-- The interrupt that a user makes at the keyboard. -/
def keyboardInterrupt : String := "KeyboardInterrupt"

/-- A run that ends with a failure. The user's own interrupt is told, and no failure. -/
def stopped (w : Workspace) (m : Plugin.Modules) (events : List Event) (stderr : String)
    (f : Failure) : Outcome :=
  if f = .interrupted keyboardInterrupt then
    ⟨1, "", stderr ++ "\nAborted!\n", none, events, w, m, none⟩
  else ⟨1, "", stderr, some f, events, w, m, none⟩

/-- A run that is refused. -/
def refused (w : Workspace) (m : Plugin.Modules) (events : List Event) (p : UsageProblem) :
    Outcome :=
  ⟨ExitStatus.fatal, "", p.text, none, events, w, m, none⟩

/-- The content of a report's file, and what is printed of it. -/
def closed (report : String) : String := if report.isEmpty then "" else report ++ "\n"

/-- What is analyzed, once the analyzers are loaded: the result with the errors of loading first. -/
def analyze (w : Workspace) (s : Settings) (p : Plan) (plugins : List Plugin.Loaded)
    (loadErrors : List String) : Journal AnalysisResult :=
  let errors := loadErrors ++ plugins.flatMap (·.warnings)
  Engine.runTarget w p.targets (s.jobs.getD p.engine.jobs) s.target
    (Plugin.entryPointsOf plugins) errors

/-- The result as a report of a format tells it: with escapes, two halves of a character are the
whole one. -/
def told (f : Report.Format) (r : AnalysisResult) : AnalysisResult :=
  match f with
  | .sarif => { r with errors := r.errors.map fun e => String.ofList (Text.joinHalves e.toList) }
  | .text => r

/-- Hands over the report of a result and ends the run. A report with a half of a character cannot
be written: its file stays empty. -/
def deliver (w : Workspace) (m : Plugin.Modules) (s : Settings) (p : Plan) (loaded : Nat)
    (events : List Event) (stderr : String) (result : AnalysisResult) (report : String) :
    Outcome :=
  let status := ExitStatus.ofRun result p.paths.length loaded
  let last := if loaded = 0 then "Error: no analyzer module could be loaded\n" else ""
  let events' := events ++ shown s [.runFinished status]
  let isWhole := !Text.holdsHalf report.toList
  let printed : Outcome :=
    if isWhole then ⟨status, closed report, stderr ++ last, none, events', w, m, none⟩
    else stopped w m events stderr .halfInText
  match s.output with
  | none => printed
  | some path =>
    if path.isEmpty then printed
    else
      let text := if isWhole then closed report else ""
      match w.writeFile (Path.ofString path) (Text.Utf8.encode text.toList) with
      | .error f => stopped w m events stderr f
      | .ok w' =>
        if isWhole then
          ⟨status, "", stderr ++ progress s ["Report saved to " ++ path] ++ last, none, events', w',
            m, some (path, closed report)⟩
        else { stopped w' m events stderr .halfInText with saved := some (path, "") }

/-- Reports a result and ends the run. -/
def finish (w : Workspace) (m : Plugin.Modules) (s : Settings) (p : Plan) (loaded : Nat)
    (events : List Event) (stderr : String) (result : AnalysisResult) : Outcome :=
  match Report.render w.interpreter.digits p.format (told p.format result) s.verbose with
  | .error f => stopped w m events stderr f
  | .ok report => deliver w m s p loaded events stderr result report

/-- Loads, analyzes and reports. -/
def perform (w : Workspace) (m : Plugin.Modules) (s : Settings) (p : Plan)
    (events : List Event) : Outcome :=
  let stderr := progress s (opening s p)
  let loading := Plugin.loadAll w ⟨m, ⟨[]⟩⟩ p.paths
  let events := events ++ shown s loading.journal.events
  match loading.journal.outcome with
  | .error f => stopped w loading.state.modules events stderr f
  | .ok (plugins, loadErrors) =>
    let stderr := stderr ++ progress s ["Running lint analysis..."]
    let analysis := analyze w s p plugins loadErrors
    let events := events ++ shown s analysis.events
    match analysis.outcome with
    | .error f => stopped w loading.state.modules events stderr f
    | .ok result =>
      finish w (Plugin.release loading.state).modules s p plugins.length events stderr result

/-- Runs with settings. -/
def runWith (w : Workspace) (m : Plugin.Modules) (s : Settings) : Outcome :=
  if s.verbose && s.quiet then
    refused w m [] (.other "Cannot specify both --verbose and --quiet")
  else
    let settled := plan w s
    let events := shown s settled.events
    match settled.outcome with
    | .error f =>
      if isRefusal f then refused w m events (.other (f.message?.getD ""))
      else stopped w m events "" f
    | .ok p =>
      if p.paths.isEmpty then
        refused w m events (.other "At least one --analyzers path is required.")
      else perform w m s p events

/-- A text as it is printed. -/
def printed (s : String) : String := String.ofList (Text.plain s.toList)

/-- Runs a command line; what it prints may hold control sequences. -/
def runStyled (w : Workspace) (m : Plugin.Modules) (args : List String) : Outcome :=
  match request w args with
  | .error (.usage p) => refused w m [] p
  | .error (.failure f) => stopped w m [] "" f
  | .ok .help => ⟨ExitStatus.success, helpText, "", none, [], w, m, none⟩
  | .ok .version => ⟨ExitStatus.success, versionText, "", none, [], w, m, none⟩
  | .ok (.run s) => runWith w m s

/-- Runs a command line. -/
def run (w : Workspace) (m : Plugin.Modules) (args : List String) : Outcome :=
  let o := runStyled w m args
  { o with stdout := printed o.stdout, stderr := printed o.stderr }

end LintHost.Command
