/-
The analyzers that come with the host.

One reports each line that calls print outside a remark, the other each line with a remark about
work to do.  Lines are those of `Text.lines`, counted from one, and columns are counted from one
within their line.
-/
import LintHost.Analyzer
import LintHost.Text.Lines
import LintHost.Text.Search
import LintHost.Text.Blank

namespace LintHost.Rules

open LintHost.Text

/-- What a call of print looks like. -/
def printCall : List Char := "print(".toList

/-- What a remark about work to do looks like. -/
def todoMark : List Char := "# TODO".toList

/-- The lines of a text with their numbers. -/
def numberedLines (source : String) : List (Nat × List Char) :=
  (lines source.toList).zipIdx.map fun l => (l.2 + 1, l.1)

/-- Whether a line is a remark as a whole. -/
def isRemark (line : List Char) : Bool := (strip line).head? == some '#'

/-- The finding about a call of print. -/
def printFinding (path : String) (line column : Nat) : Diagnostic where
  ruleCode := "CUSTOM001"
  severity := .warning
  message := "Avoid using print() in production code."
  origin := "No Print Analyzer"
  location := some ⟨some path, line, column + 1, line, column + printCall.length + 1⟩
  fixes := []

/-- The finding about a remark; `rest` is the line from the remark's word on. -/
def todoFinding (path : String) (line column : Nat) (rest : List Char) : Diagnostic where
  ruleCode := "CUSTOM002"
  severity := .info
  message :=
    "TODO found: '" ++ String.ofList (strip rest) ++ "'. Consider creating a proper task."
  origin := "TODO Analyzer"
  location := some ⟨some path, line, column + 1, line, column + 1⟩
  fixes := []

/-- The finding of a line, if it calls print. -/
def printIn (path : String) (line : Nat × List Char) : Option Diagnostic :=
  match offset? printCall line.2 with
  | some column => if isRemark line.2 then none else some (printFinding path line.1 column)
  | none => none

/-- The finding of a line, if it holds a remark about work to do. -/
def todoIn (path : String) (line : Nat × List Char) : Option Diagnostic :=
  (offset? todoMark line.2).map fun column =>
    todoFinding path line.1 column (line.2.drop (column + 2))

/-- Reports calls of print. -/
def noPrint (c : Context) : List Diagnostic :=
  (numberedLines c.source).filterMap (printIn c.path)

/-- Reports remarks about work to do. -/
def todoRemarks (c : Context) : List Diagnostic :=
  (numberedLines c.source).filterMap (todoIn c.path)

end LintHost.Rules
