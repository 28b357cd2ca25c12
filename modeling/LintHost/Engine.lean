/-
Running analyzers over units.

Every entry point meets every unit, entry points first and units within them.  A unit is read once
before any analyzer runs; a unit that cannot be read fails for every entry point.  What fails
becomes an error of the result and gives no finding; what succeeds gives all its findings, and a
finding without an origin gets the name of its entry point.  The number of jobs decides only how
much runs at a time, and never what comes out.
-/
import LintHost.Analyzer
import LintHost.Target
import LintHost.Value.Display

namespace LintHost

/-- The name of the kind of failure of the file system. -/
def OsCause.kind : OsCause → String
  | .missing => "FileNotFoundError"
  | .notDirectory => "NotADirectoryError"
  | .isDirectory => "IsADirectoryError"
  | .nameTooLong => "OSError"

namespace Engine

/-- What is known of a unit before analyzers run: its context, or why it cannot be read. -/
abbrev Prepared := Except OsFailure Context

/-- What is raised for an item that is no finding. -/
def notFinding (kind : String) : Raised :=
  .exception "TypeError" ("expected Diagnostic, got " ++ kind)

/-- What is raised for an answer that cannot be gone through. -/
def notIterable (kind : String) : Raised :=
  .exception "TypeError" ("'" ++ kind ++ "' object is not iterable")

/-- The finding with its origin. -/
def withOrigin (name : String) (d : Diagnostic) : Diagnostic :=
  if d.origin.isEmpty then { d with origin := name } else d

/-- Goes through what an analyzer hands over. -/
def collect (name : String) : List Delivery → Except Raised (List Diagnostic)
  | [] => .ok []
  | .raise e :: _ => .error e
  | .item (.other kind) :: _ => .error (notFinding kind)
  | .item (.finding d) :: rest => (withOrigin name d :: ·) <$> collect name rest

/-- The findings of an entry point for a context. -/
def findings (entry : EntryPoint) (c : Context) : Except Raised (List Diagnostic) :=
  match (entry.call c).outcome with
  | .raised e => .error e
  | .nothing => .ok []
  | .notIterable kind => .error (notIterable kind)
  | .items steps => collect entry.name steps

/-- The error of the result for an entry point that failed on a unit. -/
def failureText (entry : EntryPoint) (unit : String) (why : String) : String :=
  "Analyzer '" ++ entry.name ++ "' failed on " ++ unit ++ ": " ++ why

/-- The reason of a unit that cannot be read. -/
def unreadable (f : OsFailure) : String := f.cause.kind ++ ": " ++ f.message

/-- Prepares a unit. -/
def prepare (w : Workspace) (c : TargetsConfig) (unit : String) : Journal Prepared := do
  match w.readSource (Path.ofString unit) with
  | .error (.os f) =>
    Journal.note (.unitUnreadable unit f.message)
    pure (.error f)
  | .error e => Journal.fail e
  | .ok source =>
    let project ← Journal.of (Target.nearestProject w c unit)
    pure (.ok ⟨unit, String.ofList source, project.map Path.toString⟩)

/-- Prepares units in order. -/
def prepareAll (w : Workspace) (c : TargetsConfig) :
    List String → Journal (List (String × Prepared))
  | [] => pure []
  | unit :: rest => do
    let p ← prepare w c unit
    let more ← prepareAll w c rest
    pure ((unit, p) :: more)

/-- The units as entry points meet them. Without entry points no unit is looked at. -/
def preparation (w : Workspace) (c : TargetsConfig) (units : List String)
    (entries : List EntryPoint) : Journal (List (String × Prepared)) :=
  if entries.isEmpty then pure [] else prepareAll w c units

/-- What one entry point makes of one unit: findings, or why it failed; or else what went
through. -/
def invoke (entry : EntryPoint) (p : Prepared) : Except Escape (Except String (List Diagnostic)) :=
  match p with
  | .error f => .ok (.error (unreadable f))
  | .ok c =>
    match findings entry c with
    | .ok ds => .ok (.ok ds)
    | .error raised => raised.told.map fun (kind, text) => .error (kind ++ ": " ++ text)

/-- The meetings of entry points and units, in the order of the result. -/
def slots (entries : List EntryPoint) (units : List (String × Prepared)) :
    List (EntryPoint × String × Prepared) :=
  entries.flatMap fun e => units.map fun u => (e, u)

/-- The findings and the errors of the meetings. -/
def runSlots : List (EntryPoint × String × Prepared) → Journal (List Diagnostic × List String)
  | [] => pure ([], [])
  | (entry, unit, p) :: rest => do
    match invoke entry p with
    | .error e => Journal.fail e.failure
    | .ok (.ok ds) =>
      let (found, errors) ← runSlots rest
      pure (ds ++ found, errors)
    | .ok (.error why) =>
      Journal.note (.analyzerFailed entry.name unit why)
      let (found, errors) ← runSlots rest
      pure (found, failureText entry unit why :: errors)

/-- Runs entry points over units. The errors given are the first of the result. -/
def run (w : Workspace) (c : TargetsConfig) (jobs : Int) (units : List String)
    (entries : List EntryPoint) (errors : List String) : Journal AnalysisResult := do
  if jobs < 1 then Journal.fail (.badJobs jobs)
  else
    let prepared ← preparation w c units entries
    let (found, failed) ← runSlots (slots entries prepared)
    let result : AnalysisResult := ⟨found, errors ++ failed⟩
    Journal.note (.analysisFinished entries.length units.length result.diagnostics.length
      result.errors.length)
    pure result

/-- Runs entry points over the sources of a target. -/
def runTarget (w : Workspace) (c : TargetsConfig) (jobs : Int) (target : String)
    (entries : List EntryPoint) (errors : List String) : Journal AnalysisResult := do
  let units ← Target.resolve w c target
  if units.isEmpty then Journal.note (.noCompilationUnits target)
  run w c jobs (units.map Path.toString) entries errors

/-- The first errors of a run, given as plain data: they have to be texts. -/
def checkSeeds (errors : List Value) : Check (List String) :=
  Check.under (.field "errors") (Check.items Check.str 0 errors)

/-- A run whose first errors are given as plain data, which are looked at when the result is put
together: until then anything counts as an error. -/
def seeded (errors : List Value) (run : List String → Journal AnalysisResult) :
    Journal AnalysisResult := do
  let result ← run (errors.map Value.displayText)
  match checkSeeds errors with
  | .ok _ => pure result
  | .bad problems => Journal.fail (.invalid "AnalysisResult" problems)

end Engine

end LintHost
