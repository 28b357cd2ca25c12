/-
The formats of reports.

A format is chosen by name, in any letter case and with blanks around it.
-/
import LintHost.Report.Text
import LintHost.Report.Sarif

namespace LintHost.Report

/-- The formats. -/
inductive Format where
  | text
  | sarif
deriving DecidableEq, Repr, Inhabited

/-- The name of a format. -/
def Format.name : Format → String
  | .text => "text"
  | .sarif => "sarif"

def Format.all : List Format := [.text, .sarif]

/-- The format of a name. -/
def Format.ofName? (s : String) : Option Format :=
  let key := LintHost.Text.lower (LintHost.Text.strip s.toList)
  Format.all.find? fun f => f.name.toList == key

/-- The report in a format, with so many digits at most in a number. -/
def render (digits : Option Nat) (f : Format) (r : AnalysisResult) (verbose : Bool) :
    Except Failure String :=
  match f with
  | .text => .ok (renderText r verbose)
  | .sarif => renderSarif digits r

end LintHost.Report
