/-
Findings without their severities.

A severity is read from any data, so nothing that stands in its place is a fault, and nothing else
is read from there.  `ungraded` is what is left of a finding or a result without the severities.
Data that differs in them only, `AlikeResults`, is checked alike: the same faults are reported, or
the results are the same without their severities (`ungraded_check`).

The severities of data can be replaced by whatever one likes, `regradeAll`, and the data stays
alike.
-/
import LintHost.Diagnostic.Validation
import LintHost.Proofs.Check
import LintHost.Proofs.Dump
import LintHost.Proofs.Table

namespace LintHost

open LintHost.Check

/-! ### What is left without severities -/

/-- A finding without its severity. -/
def Diagnostic.ungraded (d : Diagnostic) : Diagnostic := { d with severity := .unknown }

/-- A result without the severities of its findings. -/
def AnalysisResult.ungraded (r : AnalysisResult) : AnalysisResult :=
  ⟨r.diagnostics.map Diagnostic.ungraded, r.errors⟩

/-! ### Data that differs in severities only -/

/-- Two mappings say the same under every name but one. -/
def SameBut (name : String) (es fs : List (Value × Value)) : Prop :=
  ∀ other, other ≠ name → Value.lookupName other es = Value.lookupName other fs

/-- Data of two findings is the same but for what it says of the severity. -/
inductive AlikeFindings : Value → Value → Prop
  | same (v : Value) : AlikeFindings v v
  | graded {v w : Value} {es fs : List (Value × Value)} (hv : v.view = .map es)
      (hw : w.view = .map fs) (h : SameBut "severity" es fs) : AlikeFindings v w

/-- Two lists of findings are the same but for severities, if they are there. -/
inductive AlikeLists : Option Value → Option Value → Prop
  | same (o : Option Value) : AlikeLists o o
  | lists {v w : Value} {vs ws : List Value} (hv : itemsOf? v = some vs)
      (hw : itemsOf? w = some ws) (h : List.Forall₂ AlikeFindings vs ws) :
      AlikeLists (some v) (some w)

/-- Data of two results is the same but for what it says of the severities of its findings. -/
inductive AlikeResults : Value → Value → Prop
  | same (v : Value) : AlikeResults v v
  | graded {v w : Value} {es fs : List (Value × Value)} (hv : v.view = .map es)
      (hw : w.view = .map fs) (h : SameBut "diagnostics" es fs)
      (hfindings : AlikeLists (Value.lookupName "diagnostics" es)
        (Value.lookupName "diagnostics" fs)) : AlikeResults v w

/-! ### Checking data without severities -/

theorem SameBut.required {α : Type} {name other : String} {es fs : List (Value × Value)}
    (h : SameBut name es fs) (hne : other ≠ name) (check : Value → Check α) :
    required other check es = required other check fs := by
  rw [Check.required, Check.required, h other hne]

theorem SameBut.withDefault {α : Type} {name other : String} {es fs : List (Value × Value)}
    (h : SameBut name es fs) (hne : other ≠ name) (default : α) (check : Value → Check α) :
    withDefault other default check es = withDefault other default check fs := by
  rw [Check.withDefault, Check.withDefault, h other hne]

/-- Whatever stands in the place of the severity is taken. -/
theorem exists_severity (es : List (Value × Value)) :
    ∃ s, withDefault "severity" Severity.warning (fun v => .ok (Severity.coerce v)) es = .ok s := by
  rw [Check.withDefault]
  split
  · exact ⟨_, rfl⟩
  · exact ⟨_, rfl⟩

/-- A finding without its severity is made of the other fields. -/
theorem ungraded_checkFields (es : List (Value × Value)) :
    Diagnostic.ungraded <$> Diagnostic.checkFields es =
      (fun ruleCode message origin location fixes =>
        (⟨ruleCode, .unknown, message, origin, location, fixes⟩ : Diagnostic))
      <$> required "rule_code" str es
      <*> required "message" str es
      <*> withDefault "origin" "" str es
      <*> withDefault "location" none (nullable Location.check) es
      <*> withDefault "fixes" [] (tuple Fix.check) es := by
  obtain ⟨s, hs⟩ := exists_severity es
  have hpure : (Check.ok s : Check Severity) = pure s := rfl
  rw [Diagnostic.checkFields, hs, hpure]
  simp only [map_seq, Functor.map_map, seq_pure]
  rfl

theorem ungraded_checkFields_congr {es fs : List (Value × Value)} (h : SameBut "severity" es fs) :
    Diagnostic.ungraded <$> Diagnostic.checkFields es =
      Diagnostic.ungraded <$> Diagnostic.checkFields fs := by
  rw [ungraded_checkFields, ungraded_checkFields, h.required (by decide), h.required (by decide),
    h.withDefault (by decide), h.withDefault (by decide), h.withDefault (by decide)]

theorem model_of_view {α : Type} {check : List (Value × Value) → Check α} {v : Value}
    {es : List (Value × Value)} (h : v.view = .map es) : model check v = check es := by
  rw [model, h]

theorem AlikeFindings.ungraded_check {v w : Value} (h : AlikeFindings v w) :
    Diagnostic.ungraded <$> Diagnostic.check v = Diagnostic.ungraded <$> Diagnostic.check w := by
  cases h with
  | same => rfl
  | graded hv hw h =>
    rw [Diagnostic.check, model_of_view hv, model_of_view hw]
    exact ungraded_checkFields_congr h

theorem AlikeLists.ungraded_check {o p : Option Value} (h : AlikeLists o p)
    {es fs : List (Value × Value)} (ho : Value.lookupName "diagnostics" es = o)
    (hp : Value.lookupName "diagnostics" fs = p) :
    List.map Diagnostic.ungraded <$> withDefault "diagnostics" [] (tuple Diagnostic.check) es =
      List.map Diagnostic.ungraded <$>
        withDefault "diagnostics" [] (tuple Diagnostic.check) fs := by
  rw [Check.withDefault, Check.withDefault, ho, hp, map_under, map_under]
  cases h with
  | same => rfl
  | lists hv hw h =>
    refine congrArg (under (.field "diagnostics")) ?_
    show List.map Diagnostic.ungraded <$> tuple Diagnostic.check _ =
      List.map Diagnostic.ungraded <$> tuple Diagnostic.check _
    rw [tuple, tuple, hv, hw]
    show List.map Diagnostic.ungraded <$> items Diagnostic.check 0 _ =
      List.map Diagnostic.ungraded <$> items Diagnostic.check 0 _
    rw [map_items, map_items]
    exact items_congr (h.imp fun _ _ hvw => hvw.ungraded_check)

/-- **Data that differs in severities only is checked alike**: the same faults are reported, or the
results are the same without their severities. -/
theorem AlikeResults.ungraded_check {v w : Value} (h : AlikeResults v w) :
    AnalysisResult.ungraded <$> AnalysisResult.check v =
      AnalysisResult.ungraded <$> AnalysisResult.check w := by
  have hparts : ∀ es, AnalysisResult.ungraded <$> AnalysisResult.checkFields es =
      AnalysisResult.mk
      <$> (List.map Diagnostic.ungraded <$>
        withDefault "diagnostics" [] (tuple Diagnostic.check) es)
      <*> withDefault "errors" [] (tuple str) es := by
    intro es
    rw [AnalysisResult.checkFields]
    simp only [map_seq, Functor.map_map]
    rfl
  cases h with
  | same => rfl
  | graded hv hw h hfindings =>
    rw [AnalysisResult.check, model_of_view hv, model_of_view hw, hparts, hparts,
      hfindings.ungraded_check rfl rfl, h.withDefault (by decide)]

/-! ### Replacing severities -/

/-- The data of a finding with something else in the place of its severity, or with nothing. -/
def regrade (severity : Option Json) : Json → Json
  | .obj fields =>
    .obj (fields.filter (fun f => f.1 != "severity")
      ++ severity.toList.map fun j => ("severity", j))
  | j => j

/-- The data of findings with something else in the place of each severity. -/
def regradeItems (severities : Nat → Option Json) : Json → Json
  | .arr items => .arr (items.zipIdx.map fun item => regrade (severities item.2) item.1)
  | j => j

/-- The data of a result with something else in the place of the severity of each finding. -/
def regradeAll (severities : Nat → Option Json) : Json → Json
  | .obj fields =>
    .obj (fields.map fun f =>
      (f.1, if f.1 = "diagnostics" then regradeItems severities f.2 else f.2))
  | j => j

theorem alike_regrade (severity : Option Json) (j : Json) :
    AlikeFindings j.toValue (regrade severity j).toValue := by
  cases j with
  | obj fields =>
    refine .graded (Value.view_toValue _) (Value.view_toValue _) ?_
    intro other hne
    rw [Json.lookupName_toEntries, Json.lookupName_toEntries, List.lookup_append,
      Table.lookup_filter_ne, if_neg hne]
    have hmore : (severity.toList.map fun j => ("severity", j)).lookup other = none := by
      cases severity with
      | none => rfl
      | some j =>
        have hother : (other == "severity") = false := by simpa using hne
        simp [List.lookup_cons, hother]
    rw [hmore, Option.or_none]
  | _ => exact .same _

theorem alike_regradeItems (severities : Nat → Option Json) (items : List Json) (n : Nat) :
    List.Forall₂ AlikeFindings (Json.toValues items)
      (Json.toValues ((items.zipIdx n).map fun item => regrade (severities item.2) item.1)) := by
  induction items generalizing n with
  | nil => exact .nil
  | cons j rest ih => exact .cons (alike_regrade _ j) (ih (n + 1))

/-- Whatever stands in the place of the severities, the rest of the data is the same. -/
theorem alike_regradeAll (severities : Nat → Option Json) (j : Json) :
    AlikeResults j.toValue (regradeAll severities j).toValue := by
  cases j with
  | obj fields =>
    have hlookup : ∀ name, Value.lookupName name (Json.toEntries (fields.map fun f =>
        (f.1, if f.1 = "diagnostics" then regradeItems severities f.2 else f.2))) =
        ((fields.lookup name).map fun j =>
          if name = "diagnostics" then regradeItems severities j else j).map Json.toValue := by
      intro name
      rw [Json.lookupName_toEntries, Table.lookup_map fun name j =>
        if name = "diagnostics" then regradeItems severities j else j]
    refine .graded (Value.view_toValue _) (Value.view_toValue _) ?_ ?_
    · intro other hne
      rw [hlookup, Json.lookupName_toEntries]
      simp [hne]
    · rw [hlookup, Json.lookupName_toEntries]
      cases fields.lookup "diagnostics" with
      | none => exact .same _
      | some j =>
        cases j with
        | arr items => exact .lists rfl rfl (alike_regradeItems severities items 0)
        | _ => exact .same _
  | _ => exact .same _

end LintHost
