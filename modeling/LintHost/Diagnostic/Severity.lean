/-
How grave a finding is.

`Severity.coerce` reads a severity from any value: a name in any letter case and with blanks
around it, and `unknown` for everything else, so that reading a severity never fails.
-/
import LintHost.Text.Blank
import LintHost.Text.Lowercase
import LintHost.Value.Basic

namespace LintHost

/-- The severities of findings. -/
inductive Severity where
  | error
  | warning
  | info
  | hint
  | unknown
deriving DecidableEq, Repr, Inhabited

namespace Severity

/-- The word for a severity. -/
def name : Severity → String
  | .error => "error"
  | .warning => "warning"
  | .info => "info"
  | .hint => "hint"
  | .unknown => "unknown"

/-- Every severity. -/
def all : List Severity := [.error, .warning, .info, .hint, .unknown]

/-- The severity of a name; any other text is unknown. -/
def ofName (s : String) : Severity :=
  let key := Text.lower (Text.strip s.toList)
  (all.find? fun v => v.name.toList == key).getD .unknown

/-- The severity of any value. -/
def coerce : Value → Severity
  | .str s => ofName s
  | _ => .unknown

/-- The level of a report that knows three levels. -/
def level : Severity → String
  | .error => "error"
  | .warning => "warning"
  | .info => "note"
  | .hint => "note"
  | .unknown => "warning"

theorem ofName_name (v : Severity) : ofName v.name = v := by
  cases v <;> decide

end Severity

end LintHost
