/-
The report as a document for other tools, in the SARIF format.

The document lists the rules that were broken, each once and described by its first finding, and
then the findings in order.  Lines and columns below one are raised to one.  Failures of the host
belong to no finding: they are notifications of the run, and there is no such part without them.
There is no report where a line or a column has more digits than are written.
-/
import LintHost.Diagnostic.Basic
import LintHost.Failure
import LintHost.Json.Printer

namespace LintHost.Report

def schemaUri : String :=
  "https://raw.githubusercontent.com/oasis-tcs/sarif-spec/master/Schemata/sarif-schema-2.1.0.json"

def sarifVersion : String := "2.1.0"

def toolName : String := "LintKit"

def toolVersion : String := "0.1.0"

def toolUri : String := "https://github.com/lintkit/lintkit"

/-- Adds a finding, unless its rule has one already. -/
def addRule (rules : List Diagnostic) (d : Diagnostic) : List Diagnostic :=
  if rules.any fun r => r.ruleCode == d.ruleCode then rules else rules ++ [d]

/-- The first finding of each rule, in the order of the findings. -/
def ruleCatalog (ds : List Diagnostic) : List Diagnostic := ds.foldl addRule []

/-- A message. -/
def message (s : String) : Json := .obj [("text", .str s)]

/-- A rule, described by a finding. -/
def rule (d : Diagnostic) : Json :=
  .obj [("id", .str d.ruleCode), ("name", .str d.origin),
    ("shortDescription", message d.message), ("fullDescription", message d.message),
    ("defaultConfiguration", .obj [("level", .str "warning")])]

/-- A region with lines and columns counted from one. -/
structure Region where
  startLine : Int
  startColumn : Int
  endLine : Int
  endColumn : Int
deriving DecidableEq, Repr

/-- The region of a location, raised to one where it lies below. -/
def Region.ofLocation (l : Location) : Region :=
  ⟨max 1 l.startLine, max 1 l.startColumn, max 1 l.endLine, max 1 l.endColumn⟩

/-- The region of a finding: the first character where none is known. -/
def region (d : Diagnostic) : Region := (d.location.map Region.ofLocation).getD ⟨1, 1, 1, 1⟩

def Region.toJson (r : Region) : Json :=
  .obj [("startLine", .int r.startLine), ("startColumn", .int r.startColumn),
    ("endLine", .int r.endLine), ("endColumn", .int r.endColumn)]

/-- A finding. -/
def finding (d : Diagnostic) : Json :=
  .obj [("ruleId", .str d.ruleCode), ("level", .str d.severity.level),
    ("message", message d.message),
    ("locations", .arr [.obj [("physicalLocation", .obj [
      ("artifactLocation", .obj [("uri", .str d.fileShown)]),
      ("region", (region d).toJson)])]])]

/-- A failure of the host. -/
def notification (e : String) : Json := .obj [("level", .str "error"), ("message", message e)]

/-- The part about failures of the host, where there are any. -/
def invocations (errors : List String) : List (String × Json) :=
  if errors.isEmpty then []
  else
    [("invocations", .arr [.obj [("executionSuccessful", .bool false),
      ("toolExecutionNotifications", .arr (errors.map notification))]])]

/-- The document. -/
def sarif (r : AnalysisResult) : Json :=
  .obj [("$schema", .str schemaUri), ("version", .str sarifVersion),
    ("runs", .arr [.obj ([
      ("tool", .obj [("driver", .obj [("name", .str toolName), ("version", .str toolVersion),
        ("informationUri", .str toolUri),
        ("rules", .arr ((ruleCatalog r.diagnostics).map rule))])]),
      ("results", .arr (r.diagnostics.map finding))] ++ invocations r.errors)])]

/-- The text of a document, with so many digits at most in a number. -/
def documentText (digits : Option Nat) (document : Json) : Except Failure String :=
  if document.hasLongNumber digits then .error (.unwritable .longNumber)
  else .ok (String.ofList document.write)

/-- The report, with so many digits at most in a number. -/
def renderSarif (digits : Option Nat) (r : AnalysisResult) : Except Failure String :=
  documentText digits (sarif r)

end LintHost.Report
