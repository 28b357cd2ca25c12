/-
What the document of a report says, looked up part by part.

Another tool finds its way in a document by the names of fields and the numbers of items.  `at?` is
that way of looking, and what is proved here is only about what it finds.  The results tell the
findings, one each and in order; the rules are those that the results refer to, each there once,
described by the finding that broke it first; and failures of the host are told where there are any.

The lines of the plain text are made without a look at the document.  `document_and_lines_agree`
puts the two side by side all the same: a line can be written from the result that stands in its
place, by putting the rule and the message on one line, and an error line from its notification.
-/
import LintHost.Check
import LintHost.Proofs.Outcome
import LintHost.Proofs.Report.Catalog
import LintHost.Proofs.Report.Text
import Mathlib.Data.List.Nodup

namespace LintHost

namespace Json

/-- What lies one step further down. -/
def part? : PathStep → Json → Option Json
  | .field name, j => j.field? name
  | .index i, .arr items => items[i]?
  | .index _, _ => none

/-- What lies at the end of a way. -/
def at? (j : Json) : List PathStep → Option Json
  | [] => some j
  | s :: rest => (part? s j).bind (·.at? rest)

/-- The text at the end of a way. -/
def textAt? (j : Json) (way : List PathStep) : Option String :=
  match j.at? way with
  | some (.str s) => some s
  | _ => none

end Json

namespace Report

open LintHost.Text

/-! ### The ways through a document -/

/-- The way to the only run. -/
def runWay : List PathStep := [.field "runs", .index 0]

def resultsWay : List PathStep := runWay ++ [.field "results"]

def rulesWay : List PathStep := runWay ++ [.field "tool", .field "driver", .field "rules"]

def invocationsWay : List PathStep := runWay ++ [.field "invocations"]

def notificationsWay : List PathStep :=
  invocationsWay ++ [.index 0, .field "toolExecutionNotifications"]

/-- The way from a result to its rule. -/
def ruleIdWay : List PathStep := [.field "ruleId"]

/-- The way from a result or a notification to its message. -/
def messageWay : List PathStep := [.field "message", .field "text"]

/-- The way from a result to its level. -/
def levelWay : List PathStep := [.field "level"]

/-- The way from a result to its file. -/
def uriWay : List PathStep :=
  [.field "locations", .index 0, .field "physicalLocation", .field "artifactLocation", .field "uri"]

/-- A result tells a finding: its rule, its message as it is, its level and its file. -/
structure Tells (j : Json) (d : Diagnostic) : Prop where
  rule : j.textAt? ruleIdWay = some d.ruleCode
  message : j.textAt? messageWay = some d.message
  level : j.textAt? levelWay = some d.severity.level
  file : ∀ f, d.file = some f → f ≠ "" → j.textAt? uriWay = some f
  noFile : d.file = none ∨ d.file = some "" → j.textAt? uriWay = some "unknown"

/-- An entry of the rules describes a rule by the first finding that breaks it. -/
def Describes (ds : List Diagnostic) (j : Json) (id : String) : Prop :=
  j.textAt? [.field "id"] = some id ∧
  ∃ d, ds.find? (fun e => e.ruleCode == id) = some d ∧
    j.textAt? [.field "name"] = some d.origin ∧
    j.textAt? [.field "shortDescription", .field "text"] = some d.message ∧
    j.textAt? [.field "fullDescription", .field "text"] = some d.message

/-- The line of an error is written from its notification. -/
def IsErrorLineOf (j : Json) (l : List Char) : Prop :=
  ∃ e, j.textAt? messageWay = some e ∧ l = "Error: ".toList ++ oneLine e.toList

/-- The line of a finding is written from its result. Only the word for the severity says more than
the level of the result does. -/
def IsFindingLineOf (j : Json) (l : List Char) : Prop :=
  ∃ code text, ∃ v : Severity, j.textAt? ruleIdWay = some code ∧ j.textAt? messageWay = some text ∧
    j.textAt? levelWay = some v.level ∧
    l = "[".toList ++ oneLine code.toList ++ "] ".toList ++ v.name.toList ++ ": ".toList
      ++ oneLine text.toList

/-! ### The parts of a document -/

theorem at?_resultsWay (r : AnalysisResult) :
    (sarif r).at? resultsWay = some (.arr (r.diagnostics.map finding)) := by
  rfl

theorem at?_rulesWay (r : AnalysisResult) :
    (sarif r).at? rulesWay = some (.arr ((ruleCatalog r.diagnostics).map rule)) := by
  rfl

theorem at?_invocationsWay (r : AnalysisResult) :
    (sarif r).at? invocationsWay = (invocations r.errors).lookup "invocations" := by
  show ((invocations r.errors).lookup "invocations").bind some = _
  exact Option.bind_fun_some _

/-- There is a part about failures of the host where there are any, and only there. -/
theorem at?_invocationsWay_eq_none_iff (r : AnalysisResult) :
    (sarif r).at? invocationsWay = none ↔ r.errors = [] := by
  rw [at?_invocationsWay, invocations]
  cases r.errors with
  | nil => exact iff_of_true rfl rfl
  | cons e rest => simp

theorem at?_notificationsWay {r : AnalysisResult} (h : r.errors ≠ []) :
    (sarif r).at? notificationsWay = some (.arr (r.errors.map notification)) := by
  have hinv : invocations r.errors = [("invocations", .arr [.obj [("executionSuccessful",
      .bool false), ("toolExecutionNotifications", .arr (r.errors.map notification))]])] := by
    rw [invocations, if_neg]
    rw [List.isEmpty_iff]
    exact h
  unfold sarif
  rw [hinv]
  rfl

/-! ### Results, rules and notifications -/

theorem tells_finding (d : Diagnostic) : Tells (finding d) d := by
  have huri : (finding d).textAt? uriWay = some d.fileShown := rfl
  refine ⟨rfl, rfl, rfl, ?_, ?_⟩
  · intro f hf hne
    have hshown : d.fileShown = f := by
      simp [Diagnostic.fileShown, hf, hne]
    rw [huri, hshown]
  · intro hnone
    have hshown : d.fileShown = "unknown" := by
      rcases hnone with hf | hf <;> simp [Diagnostic.fileShown, hf]
    rw [huri, hshown]

theorem Catalogs.describes {ds rules : List Diagnostic} (h : Catalogs ds rules) {d : Diagnostic}
    (hd : d ∈ rules) : Describes ds (rule d) d.ruleCode :=
  ⟨rfl, d, h.first d hd, rfl, rfl, rfl⟩

theorem isErrorLineOf_notification (e : String) : IsErrorLineOf (notification e) (errorLine e) :=
  ⟨e, rfl, rfl⟩

theorem isFindingLineOf_finding (d : Diagnostic) : IsFindingLineOf (finding d) (findingLine d) :=
  ⟨d.ruleCode, d.message, d.severity, rfl, rfl, rfl, rfl⟩

/-! ### The document as a whole -/

/-- **The results tell the findings, the rules are those that the results refer to, the
notifications are the errors, and the lines of the plain text are written from them.** -/
theorem document_and_lines_agree (r : AnalysisResult) :
    ∃ results rules notes : List Json, ∃ ids : List String,
      ((sarif r).at? resultsWay = some (.arr results) ∧ List.Forall₂ Tells results r.diagnostics) ∧
      ((sarif r).at? rulesWay = some (.arr rules) ∧
        List.Forall₂ (Describes r.diagnostics) rules ids ∧ ids.Nodup ∧
        (ids.Pairwise fun a b => (r.diagnostics.map (·.ruleCode)).idxOf a <
          (r.diagnostics.map (·.ruleCode)).idxOf b) ∧
        (∀ j ∈ results, ∃ id, j.textAt? ruleIdWay = some id ∧ ids.count id = 1) ∧
        ∀ id ∈ ids, ∃ j ∈ results, j.textAt? ruleIdWay = some id) ∧
      (((sarif r).at? invocationsWay = none ↔ r.errors = []) ∧
        (r.errors ≠ [] → (sarif r).at? notificationsWay = some (.arr notes)) ∧
        List.Forall₂ (fun j e => j.textAt? messageWay = some e) notes r.errors) ∧
      ∃ errorLines findingLines, lines (renderText r false).toList = errorLines ++ findingLines ∧
        List.Forall₂ IsErrorLineOf notes errorLines ∧
        List.Forall₂ IsFindingLineOf results findingLines := by
  have hcat := catalogs_ruleCatalog r.diagnostics
  have hids : ∀ id, id ∈ codes (ruleCatalog r.diagnostics) ↔ id ∈ codes r.diagnostics :=
    fun _ => hcat.mem_codes_iff
  refine ⟨r.diagnostics.map finding, (ruleCatalog r.diagnostics).map rule,
    r.errors.map notification, codes (ruleCatalog r.diagnostics),
    ⟨at?_resultsWay r, ?_⟩,
    ⟨at?_rulesWay r, Outcome.forall₂_map fun d hd => hcat.describes hd, hcat.nodup, ?_, ?_, ?_⟩,
    ⟨at?_invocationsWay_eq_none_iff r, at?_notificationsWay, ?_⟩,
    r.errors.map errorLine, r.diagnostics.map findingLine, ?_,
    Outcome.forall₂_map fun e _ => isErrorLineOf_notification e,
    Outcome.forall₂_map fun d _ => isFindingLineOf_finding d⟩
  · rw [List.forall₂_map_left_iff, List.forall₂_same]
    exact fun d _ => tells_finding d
  · exact List.pairwise_map.mpr hcat.ordered
  · intro j hj
    obtain ⟨d, hd, rfl⟩ := List.mem_map.mp hj
    refine ⟨d.ruleCode, (tells_finding d).rule, ?_⟩
    exact List.count_eq_one_of_mem hcat.nodup ((hids _).mpr (List.mem_map_of_mem hd))
  · intro id hid
    obtain ⟨d, hd, rfl⟩ := List.mem_map.mp ((hids id).mp hid)
    exact ⟨finding d, List.mem_map_of_mem hd, (tells_finding d).rule⟩
  · rw [List.forall₂_map_left_iff, List.forall₂_same]
    exact fun e _ => rfl
  · rw [lines_renderText, textLines_plain]

end Report

end LintHost
