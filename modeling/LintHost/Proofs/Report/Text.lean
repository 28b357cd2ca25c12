/-
The lines of a report are its entries.

Errors, rules, messages, analyzers and files are texts of plugins, and may hold any line break there
is, anywhere.  None of them adds a line to the report or takes one away: `lines_renderText` reads
every report back line by line, and `lines_plain_and_verbose` says what that means for somebody who
has nothing but the text.

The proof is about `textLines`, the lines that are written.  Each is `IsLine`: its fixed words make
it not empty, and every field is on one line.  That is all that reading lines back asks for.
-/
import LintHost.Report.Text
import LintHost.Proofs.Text.Lines

namespace LintHost.Report

open LintHost.Text

/-- Every third item, from the first on. -/
def everyThird {α : Type} : List α → List α
  | a :: _ :: _ :: rest => a :: everyThird rest
  | a :: _ => [a]
  | [] => []

/-- The lines of a plain report, taken from those of a verbose report with so many errors: the line
behind the errors goes, and of every three lines behind it the first stays. -/
def plainLines (errors : Nat) (verbose : List (List Char)) : List (List Char) :=
  verbose.take errors ++ everyThird (verbose.drop (errors + 1))

/-! ### Written lines are lines -/

theorem breakFree_field (s : String) : BreakFree (field s) := breakFree_oneLine s.toList

theorem breakFree_severity (v : Severity) : BreakFree v.name.toList := by
  cases v <;> decide

theorem isLine_errorLine (e : String) : IsLine (errorLine e) := by
  refine ⟨List.append_ne_nil_of_left_ne_nil (by decide) _, ?_⟩
  exact BreakFree.append (by decide) (breakFree_field e)

theorem isLine_findingLine (d : Diagnostic) : IsLine (findingLine d) := by
  refine ⟨List.cons_ne_nil _ _, ?_⟩
  have hrule : BreakFree ('[' :: field d.ruleCode) :=
    breakFree_cons.mpr ⟨by decide, breakFree_field d.ruleCode⟩
  have hsev := (hrule.append (t := "] ".toList) (by decide)).append (breakFree_severity d.severity)
  exact (hsev.append (t := ": ".toList) (by decide)).append (breakFree_field d.message)

theorem isLine_of_mem_findingLines {verbose : Bool} {d : Diagnostic} {l : List Char}
    (h : l ∈ findingLines verbose d) : IsLine l := by
  rcases List.mem_cons.mp h with rfl | h
  · exact isLine_findingLine d
  · cases verbose with
    | false => cases h
    | true =>
      have hcases : l = "  Type: ".toList ++ field d.origin ∨
          l = "  File: ".toList ++ field d.fileShown := by simpa using h
      rcases hcases with rfl | rfl
      · refine ⟨List.append_ne_nil_of_left_ne_nil (by decide) _, ?_⟩
        exact BreakFree.append (by decide) (breakFree_field d.origin)
      · refine ⟨List.append_ne_nil_of_left_ne_nil (by decide) _, ?_⟩
        exact BreakFree.append (by decide) (breakFree_field d.fileShown)

theorem isLine_countLine (n : Nat) : IsLine (countLine n) := by
  have hfront : BreakFree ("Found ".toList ++ decimal n) :=
    BreakFree.append (by decide) (breakFree_decimal n)
  refine ⟨?_, hfront.append (by decide)⟩
  exact List.append_ne_nil_of_right_ne_nil _ (by decide)

theorem countLine_eq (n : Nat) :
    countLine n = ("Found " ++ Nat.repr n ++ " violation(s):").toList := by
  have hdigits : (Nat.repr n).toList = decimal n := String.toList_ofList
  rw [String.toList_append, String.toList_append, hdigits]
  rfl

theorem isLine_of_mem_textLines {r : AnalysisResult} {verbose : Bool} {l : List Char}
    (h : l ∈ textLines r verbose) : IsLine l := by
  rcases List.mem_append.mp h with h | h
  · obtain ⟨e, -, rfl⟩ := List.mem_map.mp h
    exact isLine_errorLine e
  · by_cases hempty : r.diagnostics.isEmpty
    · rw [if_pos hempty] at h
      cases verbose with
      | false => cases h
      | true =>
        rw [if_pos rfl, List.mem_singleton] at h
        subst h
        exact ⟨by decide, by decide⟩
    · rw [if_neg hempty] at h
      rcases List.mem_append.mp h with h | h
      · cases verbose with
        | false => cases h
        | true =>
          rw [if_pos rfl, List.mem_singleton] at h
          subst h
          exact isLine_countLine _
      · obtain ⟨d, -, hd⟩ := List.mem_flatMap.mp h
        exact isLine_of_mem_findingLines hd

/-- **A report has the lines that were written, and no others.** -/
theorem lines_renderText (r : AnalysisResult) (verbose : Bool) :
    lines (renderText r verbose).toList = textLines r verbose := by
  rw [renderText, String.toList_ofList]
  exact lines_joinWith fun l hl => isLine_of_mem_textLines hl

/-! ### Plain and verbose reports -/

/-- A plain report has one line for each error and one for each finding. -/
theorem textLines_plain (r : AnalysisResult) :
    textLines r false = r.errors.map errorLine ++ r.diagnostics.map findingLine := by
  unfold textLines
  congr 1
  cases r.diagnostics with
  | nil => rfl
  | cons d rest =>
    show (d :: rest).flatMap (findingLines false) = _
    exact (List.map_eq_flatMap (f := findingLine)).symm

/-- A verbose report has the same lines for the errors, and then a line that says nothing was found
or one that counts the findings, with three lines for each. -/
theorem textLines_verbose (r : AnalysisResult) :
    textLines r true = r.errors.map errorLine ++
      if r.diagnostics.isEmpty then [successMessage.toList]
      else countLine r.diagnostics.length :: r.diagnostics.flatMap (findingLines true) := by
  rfl

theorem take_errorLines (errors : List String) (rest : List (List Char)) :
    (errors.map errorLine ++ rest).take errors.length = errors.map errorLine :=
  List.take_left' (List.length_map _)

theorem drop_errorLines (errors : List String) (rest : List (List Char)) :
    (errors.map errorLine ++ rest).drop errors.length = rest :=
  List.drop_left' (List.length_map _)

theorem everyThird_flatMap_findingLines (ds : List Diagnostic) :
    everyThird (ds.flatMap (findingLines true)) = ds.map findingLine := by
  induction ds with
  | nil => rfl
  | cons d rest ih =>
    show findingLine d :: everyThird (rest.flatMap (findingLines true)) = _
    rw [ih]
    rfl

/-- The plain report is in the verbose one. -/
theorem plainLines_textLines (r : AnalysisResult) :
    plainLines r.errors.length (textLines r true) = textLines r false := by
  rw [plainLines, textLines_verbose, textLines_plain, take_errorLines, ← List.drop_drop,
    drop_errorLines]
  congr 1
  cases hds : r.diagnostics with
  | nil => rfl
  | cons d rest => exact everyThird_flatMap_findingLines (d :: rest)

theorem renderText_eq_empty_iff (r : AnalysisResult) :
    renderText r false = "" ↔ r.errors = [] ∧ r.diagnostics = [] := by
  constructor
  · intro h
    have hlines := lines_renderText r false
    rw [h, textLines_plain] at hlines
    obtain ⟨herrors, hds⟩ := List.append_eq_nil_iff.mp hlines.symm
    exact ⟨List.map_eq_nil_iff.mp herrors, List.map_eq_nil_iff.mp hds⟩
  · rintro ⟨herrors, hds⟩
    rw [renderText, textLines_plain, herrors, hds]
    rfl

theorem splitOn_renderText {r : AnalysisResult} (h : renderText r false ≠ "") :
    (renderText r false).toList.splitOn '\n' = lines (renderText r false).toList := by
  rw [lines_renderText, renderText, String.toList_ofList]
  refine splitOn_joinWith ?_ fun l hl => (isLine_of_mem_textLines hl).2
  intro hnil
  rw [renderText, hnil] at h
  exact h rfl

/-- **One line for each entry, whatever the texts of the entries hold.**  The lines of a plain
report are those of the errors and of the findings, in their order, for whoever breaks at every
boundary and for whoever breaks at LF alone.  A verbose report adds a line behind the errors, and
two behind every finding; without them it is the plain report. -/
theorem lines_plain_and_verbose (r : AnalysisResult) :
    let plain := lines (renderText r false).toList
    let verbose := lines (renderText r true).toList
    (plain = r.errors.map errorLine ++ r.diagnostics.map findingLine ∧
      plain.length = r.errors.length + r.diagnostics.length ∧
      (∀ l ∈ plain.take r.errors.length, "Error: ".toList <+: l) ∧
      (∀ l ∈ plain.drop r.errors.length, "[".toList <+: l) ∧
      (renderText r false ≠ "" → (renderText r false).toList.splitOn '\n' = plain) ∧
      (renderText r false = "" ↔ r.errors = [] ∧ r.diagnostics = [])) ∧
    verbose.take r.errors.length = plain.take r.errors.length ∧
    (r.diagnostics = [] → verbose.drop r.errors.length = [successMessage.toList]) ∧
    (r.diagnostics ≠ [] →
      verbose.drop r.errors.length =
        ("Found " ++ Nat.repr r.diagnostics.length ++ " violation(s):").toList ::
          r.diagnostics.flatMap fun d =>
            [findingLine d, "  Type: ".toList ++ field d.origin,
              "  File: ".toList ++ field d.fileShown]) ∧
    joinWith ['\n'] (plainLines r.errors.length verbose) = (renderText r false).toList := by
  rw [lines_renderText, lines_renderText]
  refine ⟨⟨textLines_plain r, ?_, ?_, ?_, ?_, renderText_eq_empty_iff r⟩, ?_, ?_, ?_, ?_⟩
  · rw [textLines_plain, List.length_append, List.length_map, List.length_map]
  · rw [textLines_plain, take_errorLines]
    intro l hl
    obtain ⟨e, -, rfl⟩ := List.mem_map.mp hl
    exact List.prefix_append _ _
  · rw [textLines_plain, drop_errorLines]
    intro l hl
    obtain ⟨d, -, rfl⟩ := List.mem_map.mp hl
    exact ⟨_, rfl⟩
  · intro h
    rw [splitOn_renderText h, lines_renderText]
  · rw [textLines_plain, textLines_verbose, take_errorLines, take_errorLines]
  · intro hds
    rw [textLines_verbose, drop_errorLines, hds]
    rfl
  · intro hds
    rw [textLines_verbose, drop_errorLines, if_neg (by simpa using hds)]
    rw [countLine_eq]
    rfl
  · rw [plainLines_textLines, renderText, String.toList_ofList]

end LintHost.Report
