/-
The report as lines of text.

Failures of the host come first, one line each, then one line for each finding.  A verbose report
adds a count, the analyzer and the file of each finding, or a line that says nothing was found.
Line breaks inside the fields become spaces, so that no field adds a line of its own.
-/
import LintHost.Diagnostic.Basic
import LintHost.Text.Lines
import LintHost.Text.Digit

namespace LintHost.Report

open LintHost.Text

/-- What a verbose report says when nothing was found. -/
def successMessage : String := "Analysis completed successfully - no violations found"

/-- A field of a line. -/
def field (s : String) : List Char := oneLine s.toList

/-- The line of a failure of the host. -/
def errorLine (e : String) : List Char := "Error: ".toList ++ field e

/-- The line of a finding. -/
def findingLine (d : Diagnostic) : List Char :=
  '[' :: field d.ruleCode ++ "] ".toList ++ d.severity.name.toList ++ ": ".toList
    ++ field d.message

/-- The lines about a finding. -/
def findingLines (verbose : Bool) (d : Diagnostic) : List (List Char) :=
  findingLine d ::
    if verbose then ["  Type: ".toList ++ field d.origin, "  File: ".toList ++ field d.fileShown]
    else []

/-- The line that counts the findings. -/
def countLine (n : Nat) : List Char := "Found ".toList ++ decimal n ++ " violation(s):".toList

/-- The lines of the report. -/
def textLines (r : AnalysisResult) (verbose : Bool) : List (List Char) :=
  r.errors.map errorLine ++
    if r.diagnostics.isEmpty then (if verbose then [successMessage.toList] else [])
    else
      (if verbose then [countLine r.diagnostics.length] else [])
        ++ r.diagnostics.flatMap (findingLines verbose)

/-- The report. -/
def renderText (r : AnalysisResult) (verbose : Bool) : String :=
  String.ofList (joinWith ['\n'] (textLines r verbose))

end LintHost.Report
