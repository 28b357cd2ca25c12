/-
Findings, and what one run of the analyzers gives.

A finding names a rule, a severity, a message and the analyzer it comes from, and may say where it
was made and how to mend it.  A result is the findings of a run together with the failures of the
host, both in order.  Every location has an end: where none was given, the end is the start.
-/
import LintHost.Diagnostic.Severity

namespace LintHost

/-- A region of a file, lines and columns counted from one. -/
structure Location where
  file : Option String
  startLine : Int
  startColumn : Int
  endLine : Int
  endColumn : Int
deriving DecidableEq, Repr, Inhabited

/-- A suggested edit. -/
structure Fix where
  title : String
  replacement : String
  location : Option Location
deriving DecidableEq, Repr, Inhabited

/-- A finding. -/
structure Diagnostic where
  ruleCode : String
  severity : Severity
  message : String
  origin : String
  location : Option Location
  fixes : List Fix
deriving DecidableEq, Repr, Inhabited

/-- The findings of a run and the failures of the host. -/
structure AnalysisResult where
  diagnostics : List Diagnostic
  errors : List String
deriving DecidableEq, Repr, Inhabited

/-- The file that a finding is about. -/
def Diagnostic.file (d : Diagnostic) : Option String := d.location.bind (·.file)

/-- The file that a finding is about, as reports name it. -/
def Diagnostic.fileShown (d : Diagnostic) : String :=
  match d.file with
  | some f => if f.isEmpty then "unknown" else f
  | none => "unknown"

/-! ### As plain data -/

/-- A text that may be missing. -/
def Json.ofOption {α : Type} (f : α → Json) : Option α → Json
  | some x => f x
  | none => .null

def Location.toJson (l : Location) : Json :=
  .obj [("file", Json.ofOption .str l.file), ("start_line", .int l.startLine),
    ("start_column", .int l.startColumn), ("end_line", .int l.endLine),
    ("end_column", .int l.endColumn)]

def Fix.toJson (f : Fix) : Json :=
  .obj [("title", .str f.title), ("replacement", .str f.replacement),
    ("location", Json.ofOption Location.toJson f.location)]

def Diagnostic.toJson (d : Diagnostic) : Json :=
  .obj [("rule_code", .str d.ruleCode), ("severity", .str d.severity.name),
    ("message", .str d.message), ("origin", .str d.origin),
    ("location", Json.ofOption Location.toJson d.location),
    ("fixes", .arr (d.fixes.map Fix.toJson))]

def AnalysisResult.toJson (r : AnalysisResult) : Json :=
  .obj [("diagnostics", .arr (r.diagnostics.map Diagnostic.toJson)),
    ("errors", .arr (r.errors.map .str))]

end LintHost
