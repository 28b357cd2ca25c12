/-
Findings and results from plain data.

The fields are checked in their order and every fault is reported.  A severity is never wrong.
The end of a location, line and column each on its own, is the start where it is missing or null:
the start as it was written, so that a start that is wrong is reported for the end as well.
-/
import LintHost.Check
import LintHost.Diagnostic.Basic

namespace LintHost

/-- The end of a location in one direction, as it was written: its own value, or else that of the
start, or else one. -/
def Location.rawEnd (startName endName : String) (entries : List (Value × Value)) : Value :=
  match Value.lookupName endName entries with
  | none | some .null => (Value.lookupName startName entries).getD (.int 1)
  | some v => v

/-- The end of a location in one direction. -/
def Location.checkEnd (startName endName : String) (entries : List (Value × Value)) :
    Check (Option Int) :=
  .under (.field endName) (Check.nullable Check.int (Location.rawEnd startName endName entries))

/-- A location from its fields. -/
def Location.checkFields (entries : List (Value × Value)) : Check Location :=
  (fun file startLine startColumn endLine endColumn =>
    ⟨file, startLine, startColumn, endLine.getD startLine, endColumn.getD startColumn⟩)
  <$> Check.withDefault "file" none (Check.nullable Check.str) entries
  <*> Check.withDefault "start_line" 1 Check.int entries
  <*> Check.withDefault "start_column" 1 Check.int entries
  <*> Location.checkEnd "start_line" "end_line" entries
  <*> Location.checkEnd "start_column" "end_column" entries

def Location.check : Value → Check Location := Check.model Location.checkFields

/-- A suggested edit from its fields. -/
def Fix.checkFields (entries : List (Value × Value)) : Check Fix :=
  Fix.mk
  <$> Check.withDefault "title" "" Check.str entries
  <*> Check.withDefault "replacement" "" Check.str entries
  <*> Check.withDefault "location" none (Check.nullable Location.check) entries

def Fix.check : Value → Check Fix := Check.model Fix.checkFields

/-- A finding from its fields. -/
def Diagnostic.checkFields (entries : List (Value × Value)) : Check Diagnostic :=
  Diagnostic.mk
  <$> Check.required "rule_code" Check.str entries
  <*> Check.withDefault "severity" .warning (fun v => .ok (Severity.coerce v)) entries
  <*> Check.required "message" Check.str entries
  <*> Check.withDefault "origin" "" Check.str entries
  <*> Check.withDefault "location" none (Check.nullable Location.check) entries
  <*> Check.withDefault "fixes" [] (Check.tuple Fix.check) entries

def Diagnostic.check : Value → Check Diagnostic := Check.model Diagnostic.checkFields

/-- A result from its fields. -/
def AnalysisResult.checkFields (entries : List (Value × Value)) : Check AnalysisResult :=
  AnalysisResult.mk
  <$> Check.withDefault "diagnostics" [] (Check.tuple Diagnostic.check) entries
  <*> Check.withDefault "errors" [] (Check.tuple Check.str) entries

def AnalysisResult.check : Value → Check AnalysisResult := Check.model AnalysisResult.checkFields

end LintHost
