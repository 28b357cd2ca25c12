/-
The status a run ends with.

Findings make the status one, and failures of the host do not.  A run that was asked for
analyzers and loaded none of them failed as a whole.
-/
import LintHost.Diagnostic.Basic

namespace LintHost.ExitStatus

def success : Nat := 0
def violations : Nat := 1
def fatal : Nat := 2

/-- The status of a result. -/
def ofResult (r : AnalysisResult) : Nat := if r.diagnostics.isEmpty then success else violations

/-- The status of a run that was asked for some analyzers and loaded some. -/
def ofRun (r : AnalysisResult) (requested loaded : Int) : Nat :=
  if requested > 0 && loaded == 0 then fatal else ofResult r

end LintHost.ExitStatus
