/-
What the severities of findings do to reports.

Two results that are the same without their severities have the same status and the same rules, and
their reports differ in few places.  A plain text has one word for the severity in the line of each
finding, and is the same line by line otherwise; the document for other tools has a level in each
result, and is the same once the levels are put in, `relevel`.  So from the check of data to its
reports nothing depends on a severity but the word and the level of its own finding:
`severity_never_interferes`.
-/
import LintHost.ExitStatus
import LintHost.Report.Format
import LintHost.Proofs.Diagnostic.Grading
import LintHost.Proofs.Report.Document
import LintHost.Proofs.Report.Sarif

namespace LintHost

namespace Json

/-- The data with something else made of what lies at the end of a way. -/
def modifyAt : List PathStep → (Json → Json) → Json → Json
  | [], f, j => f j
  | .field name :: rest, f, .obj fields =>
    .obj (fields.map fun e => (e.1, if e.1 = name then modifyAt rest f e.2 else e.2))
  | .index i :: rest, f, .arr items => .arr (items.modify i (modifyAt rest f))
  | _, _, j => j

end Json

namespace Report

open LintHost.Text

/-- The words for severities in a text. -/
def severityWords : List String := ["error", "warning", "info", "hint", "unknown"]

/-- The levels in a document. -/
def levelWords : List String := ["error", "warning", "note"]

theorem name_mem_severityWords (s : Severity) : s.name ∈ severityWords := by
  cases s <;> decide

theorem level_mem_levelWords (s : Severity) : s.level ∈ levelWords := by
  cases s <;> decide

/-- The line of a finding with a word for its severity. -/
def gradedLine (ruleCode message word : String) : List Char :=
  "[".toList ++ oneLine ruleCode.toList ++ "] ".toList ++ word.toList ++ ": ".toList
    ++ oneLine message.toList

/-- Two lines are the same but for the word for a severity, in the line of a finding. -/
inductive AlikeLines : List Char → List Char → Prop
  | same (l : List Char) : AlikeLines l l
  | graded (ruleCode message : String) {word other : String} (hword : word ∈ severityWords)
      (hother : other ∈ severityWords) :
      AlikeLines (gradedLine ruleCode message word) (gradedLine ruleCode message other)

/-- Results with other levels. -/
def withLevels (levels : List String) : Json → Json
  | .arr results =>
    .arr (levels.zipWith (fun level j => j.modifyAt levelWay fun _ => .str level) results)
  | j => j

/-- The document with other levels in its results. -/
def relevel (levels : List String) (document : Json) : Json :=
  document.modifyAt resultsWay (withLevels levels)

/-- The levels of the findings of a result. -/
def levels (r : AnalysisResult) : List String := r.diagnostics.map (·.severity.level)

/-! ### Findings that are the same without severities -/

theorem findingLine_eq (d : Diagnostic) :
    findingLine d = gradedLine d.ruleCode d.message d.severity.name := rfl

theorem diagnostic_eq_of_ungraded {d e : Diagnostic} (h : d.ungraded = e.ungraded) :
    e = { d with severity := e.severity } := by
  obtain ⟨dc, ds, dm, do_, dl, df⟩ := d
  obtain ⟨ec, es, em, eo, el, ef⟩ := e
  cases h
  rfl

theorem alike_findingLine {d e : Diagnostic} (h : d.ungraded = e.ungraded) :
    AlikeLines (findingLine d) (findingLine e) := by
  rw [diagnostic_eq_of_ungraded h]
  exact .graded _ _ (name_mem_severityWords _) (name_mem_severityWords _)

theorem alike_findingLines {d e : Diagnostic} (h : d.ungraded = e.ungraded) (verbose : Bool) :
    List.Forall₂ AlikeLines (findingLines verbose d) (findingLines verbose e) := by
  refine .cons (alike_findingLine h) ?_
  rw [diagnostic_eq_of_ungraded h]
  exact List.forall₂_same.mpr fun l _ => .same l

theorem relevel_finding {d e : Diagnostic} (h : d.ungraded = e.ungraded) :
    (finding d).modifyAt levelWay (fun _ => .str e.severity.level) = finding e := by
  rw [diagnostic_eq_of_ungraded h]
  rfl

/-! ### Lists of findings -/

/-- Two lists of findings are the same without severities. -/
abbrev AlikeGraded : List Diagnostic → List Diagnostic → Prop :=
  List.Forall₂ fun d e => d.ungraded = e.ungraded

theorem alikeGraded_of_map {ds es : List Diagnostic}
    (h : ds.map Diagnostic.ungraded = es.map Diagnostic.ungraded) : AlikeGraded ds es := by
  have heq := List.forall₂_eq_eq_eq ▸ h
  rw [List.forall₂_map_left_iff, List.forall₂_map_right_iff] at heq
  exact heq

theorem addRule_map_ungraded (rules : List Diagnostic) (d : Diagnostic) :
    addRule (rules.map Diagnostic.ungraded) d.ungraded =
      (addRule rules d).map Diagnostic.ungraded := by
  rw [addRule, addRule, List.any_map]
  show (if rules.any fun r => r.ruleCode == d.ruleCode then _ else _) = _
  split_ifs <;> simp

theorem ruleCatalog_map_ungraded (ds : List Diagnostic) :
    ruleCatalog (ds.map Diagnostic.ungraded) = (ruleCatalog ds).map Diagnostic.ungraded := by
  have hfold : ∀ rules : List Diagnostic,
      (ds.map Diagnostic.ungraded).foldl addRule (rules.map Diagnostic.ungraded) =
        (ds.foldl addRule rules).map Diagnostic.ungraded := by
    induction ds with
    | nil => exact fun _ => rfl
    | cons d rest ih =>
      intro rules
      rw [List.map_cons, List.foldl_cons, List.foldl_cons, addRule_map_ungraded, ih]
  exact hfold []

/-- The rules of a report have nothing of a severity. -/
theorem map_rule_eq {ds es : List Diagnostic}
    (h : ds.map Diagnostic.ungraded = es.map Diagnostic.ungraded) :
    (ruleCatalog ds).map rule = (ruleCatalog es).map rule := by
  have hrule : ∀ xs : List Diagnostic,
      (ruleCatalog xs).map rule = (ruleCatalog (xs.map Diagnostic.ungraded)).map rule := by
    intro xs
    rw [ruleCatalog_map_ungraded, List.map_map]
    rfl
  rw [hrule, hrule es, h]

theorem withLevels_findings {ds es : List Diagnostic} (h : AlikeGraded ds es) :
    withLevels (es.map (·.severity.level)) (.arr (ds.map finding)) = .arr (es.map finding) := by
  refine congrArg Json.arr ?_
  induction h with
  | nil => rfl
  | cons hhead _ ih =>
    rw [List.map_cons, List.map_cons, List.map_cons, List.zipWith_cons_cons, ih,
      relevel_finding hhead]

/-! ### Reports -/

variable {r s : AnalysisResult}

/-- The two results have their findings in common, and all of their errors. -/
theorem parts_of_ungraded (h : r.ungraded = s.ungraded) :
    r.diagnostics.map Diagnostic.ungraded = s.diagnostics.map Diagnostic.ungraded ∧
      r.errors = s.errors :=
  AnalysisResult.mk.inj h

theorem isEmpty_of_ungraded (h : r.ungraded = s.ungraded) :
    r.diagnostics.isEmpty = s.diagnostics.isEmpty := by
  rw [← List.isEmpty_map, (parts_of_ungraded h).1, List.isEmpty_map]

theorem alike_textLines (h : r.ungraded = s.ungraded) (verbose : Bool) :
    List.Forall₂ AlikeLines (textLines r verbose) (textLines s verbose) := by
  obtain ⟨hdiagnostics, herrors⟩ := parts_of_ungraded h
  have hsame : ∀ ls : List (List Char), List.Forall₂ AlikeLines ls ls :=
    fun ls => List.forall₂_same.mpr fun l _ => .same l
  have hgraded := alikeGraded_of_map hdiagnostics
  rw [textLines, textLines, herrors, isEmpty_of_ungraded h, hgraded.length_eq]
  refine List.rel_append (hsame _) ?_
  split_ifs
  · exact hsame _
  · exact hsame _
  · exact List.rel_append (hsame _)
      (List.rel_flatMap hgraded fun _ _ hd => alike_findingLines hd verbose)
  · exact List.rel_append (hsame _)
      (List.rel_flatMap hgraded fun _ _ hd => alike_findingLines hd verbose)

/-- The part about failures of the host has no results. -/
theorem map_invocations (errors : List String) (f : Json → Json) :
    (invocations errors).map (fun e => (e.1, if e.1 = "results" then f e.2 else e.2)) =
      invocations errors := by
  unfold invocations
  split_ifs <;> simp

theorem relevel_sarif (h : r.ungraded = s.ungraded) :
    relevel (levels s) (sarif r) = sarif s := by
  obtain ⟨hdiagnostics, herrors⟩ := parts_of_ungraded h
  have hresults := withLevels_findings (alikeGraded_of_map hdiagnostics)
  have hrules := map_rule_eq hdiagnostics
  unfold relevel sarif
  rw [hrules, herrors]
  simp [Json.modifyAt, resultsWay, runWay, map_invocations, levels, hresults]

/-- Two results have reports that differ in the words for severities and in the levels only. -/
structure SameReports (r s : AnalysisResult) : Prop where
  status : ExitStatus.ofResult r = ExitStatus.ofResult s
  runStatus : ∀ requested loaded,
    ExitStatus.ofRun r requested loaded = ExitStatus.ofRun s requested loaded
  rules : (sarif r).at? rulesWay = (sarif s).at? rulesWay
  /-- The lines of the texts are the same but for the words in the lines of findings. -/
  text : ∀ digits verbose, ∃ ls ms,
    render digits .text r verbose = .ok (String.ofList (joinWith ['\n'] ls)) ∧
    render digits .text s verbose = .ok (String.ofList (joinWith ['\n'] ms)) ∧
    List.Forall₂ AlikeLines ls ms
  /-- The documents are the same once the levels are put in. -/
  document : relevel (levels s) (sarif r) = sarif s
  /-- There are texts of both, or of none. -/
  documentWritten : ∀ digits verbose, (∃ text, render digits .sarif r verbose = .ok text) ↔
    ∃ text, render digits .sarif s verbose = .ok text
  documentText : ∀ digits verbose,
    render digits .sarif s verbose = documentText digits (relevel (levels s) (sarif r))

/-- A region has nothing of a severity. -/
theorem any_region_map_ungraded (f : Region → Bool) (ds : List Diagnostic) :
    (ds.map Diagnostic.ungraded).any (fun d => f (region d)) = ds.any fun d => f (region d) := by
  rw [List.any_map]
  rfl

theorem hasLongNumber_of_ungraded (h : r.ungraded = s.ungraded) (digits : Option Nat) :
    (sarif r).hasLongNumber digits = (sarif s).hasLongNumber digits := by
  let isLong : Region → Bool := fun g => g.numbers.any (hasMoreDigits digits)
  rw [hasLongNumber_sarif, hasLongNumber_sarif, ← any_region_map_ungraded isLong r.diagnostics,
    (parts_of_ungraded h).1]
  exact any_region_map_ungraded isLong s.diagnostics

theorem sameReports_of_ungraded (h : r.ungraded = s.ungraded) : SameReports r s := by
  have hstatus : ExitStatus.ofResult r = ExitStatus.ofResult s := by
    rw [ExitStatus.ofResult, ExitStatus.ofResult, isEmpty_of_ungraded h]
  refine ⟨hstatus, ?_, ?_, ?_, relevel_sarif h, ?_, ?_⟩
  · intro requested loaded
    rw [ExitStatus.ofRun, ExitStatus.ofRun, hstatus]
  · rw [at?_rulesWay, at?_rulesWay, map_rule_eq (parts_of_ungraded h).1]
  · exact fun digits verbose => ⟨textLines r verbose, textLines s verbose, rfl, rfl,
      alike_textLines h verbose⟩
  · intro digits verbose
    show (∃ text, renderSarif digits r = .ok text) ↔ ∃ text, renderSarif digits s = .ok text
    simp only [renderSarif_eq_ok_iff, hasLongNumber_of_ungraded h, exists_and_left, exists_eq]
  · intro digits verbose
    rw [relevel_sarif h]
    rfl

/-- A result shows its severities in known words and levels. -/
structure Graded (r : AnalysisResult) : Prop where
  words : ∀ d ∈ r.diagnostics, ∃ word ∈ severityWords,
    findingLine d = gradedLine d.ruleCode d.message word
  levels : ∃ results, (sarif r).at? resultsWay = some (.arr results) ∧
    ∀ j ∈ results, ∃ level ∈ levelWords, j.textAt? levelWay = some level

theorem graded (r : AnalysisResult) : Graded r := by
  refine ⟨fun d _ => ⟨d.severity.name, name_mem_severityWords _, findingLine_eq d⟩,
    r.diagnostics.map finding, at?_resultsWay r, ?_⟩
  intro j hj
  obtain ⟨d, -, rfl⟩ := List.mem_map.mp hj
  exact ⟨d.severity.level, level_mem_levelWords _, (tells_finding d).level⟩

/-- **Nothing depends on a severity but the word and the level of its own finding.**  Data that
differs in severities only, whatever stands in their place, has the same faults, or makes results
that are the same without severities, with the same status, the same rules, and reports that differ
in words and levels only.  These are always among those that there are. -/
theorem severity_never_interferes :
    (∀ v w, AlikeResults v w →
      (∃ problems, AnalysisResult.check v = .bad problems ∧
        AnalysisResult.check w = .bad problems) ∨
      ∃ r s, AnalysisResult.check v = .ok r ∧ AnalysisResult.check w = .ok s ∧
        r.ungraded = s.ungraded ∧ SameReports r s) ∧
    (∀ severities j, AlikeResults (Json.toValue j) (regradeAll severities j).toValue) ∧
    ∀ r, Graded r := by
  refine ⟨fun v w h => ?_, alike_regradeAll, graded⟩
  rcases Check.map_eq_map_iff.mp h.ungraded_check with hbad | ⟨r, s, hr, hs, hsame⟩
  · exact Or.inl hbad
  · exact Or.inr ⟨r, s, hr, hs, hsame, sameReports_of_ungraded hsame⟩

/-- A severity that is taken away, and a list in whose place something true is put. -/
theorem severity_never_interferes_of_regraded :
    let j : Json := .obj [("diagnostics", .arr [
      .obj [("rule_code", .str "R"), ("severity", .str " ERROR"), ("message", .str "a")],
      .obj [("rule_code", .str "S"), ("severity", .arr []), ("message", .str "b")]]),
      ("errors", .arr [.str "e"])]
    let k := regradeAll (fun i => if i = 0 then none else some (.bool true)) j
    let r : AnalysisResult :=
      ⟨[⟨"R", .error, "a", "", none, []⟩, ⟨"S", .unknown, "b", "", none, []⟩], ["e"]⟩
    AnalysisResult.check j.toValue = .ok r ∧
      ∃ s, AnalysisResult.check k.toValue = .ok s ∧ s.ungraded = r.ungraded ∧
        s.diagnostics.map (·.severity) = [.warning, .unknown] ∧
        relevel ["warning", "warning"] (sarif r) = sarif s := by
  intro j k r
  obtain ⟨hchecks, halike, -⟩ := severity_never_interferes
  have hr : AnalysisResult.check j.toValue = .ok r := by rfl
  have hs : AnalysisResult.check k.toValue = .ok ⟨[⟨"R", .warning, "a", "", none, []⟩,
    ⟨"S", .unknown, "b", "", none, []⟩], ["e"]⟩ := by rfl
  rcases hchecks _ _ (halike _ j) with ⟨problems, hbad, -⟩ | ⟨r', s, hr', hs', hsame, hreports⟩
  · cases hr.symm.trans hbad
  · obtain rfl := Check.ok.inj (hr.symm.trans hr')
    obtain rfl := Check.ok.inj (hs.symm.trans hs')
    exact ⟨hr, _, hs, hsame.symm, rfl, hreports.document⟩

end Report

end LintHost
