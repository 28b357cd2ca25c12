/-
The catalog of the rules that were broken.

A report lists every rule once, in the order in which the rules are first broken, and describes it
by the finding that broke it first.  `Catalogs` says this of a list of findings and a catalog,
without a word on how the catalog is made: every entry is the first finding of its rule, every
finding has its rule among the entries, and the entries stand in the order of the first places of
their rules.

The catalog is made in one pass, which looks back at the entries that are already there.  One more
finding either repeats a rule, and then neither the entries nor any first place changes, or it is
the first of its rule, and then its place is behind all the others.  That is `Catalogs.snoc`, and
the induction over the findings from the left is all there is to `catalogs_ruleCatalog`.
-/
import LintHost.Report.Sarif
import Mathlib.Data.List.Basic
import Mathlib.Data.List.Induction

namespace LintHost.Report

/-- The codes of the rules of findings. -/
def codes (ds : List Diagnostic) : List String := ds.map Diagnostic.ruleCode

/-- A catalog of the rules that findings break. -/
structure Catalogs (ds rules : List Diagnostic) : Prop where
  /-- An entry is the first finding of its rule. -/
  first : ∀ r ∈ rules, ds.find? (fun d => d.ruleCode == r.ruleCode) = some r
  /-- Every rule that was broken has an entry. -/
  covers : ∀ d ∈ ds, d.ruleCode ∈ codes rules
  /-- The entries stand in the order of the first places of their rules. -/
  ordered : rules.Pairwise fun a b => (codes ds).idxOf a.ruleCode < (codes ds).idxOf b.ruleCode

theorem codes_append (ds es : List Diagnostic) : codes (ds ++ es) = codes ds ++ codes es :=
  List.map_append

theorem addRule_of_mem {rules : List Diagnostic} {d : Diagnostic} (h : d.ruleCode ∈ codes rules) :
    addRule rules d = rules := by
  rw [addRule, if_pos]
  obtain ⟨r, hr, hcode⟩ := List.mem_map.mp h
  exact List.any_eq_true.mpr ⟨r, hr, beq_iff_eq.mpr hcode⟩

theorem addRule_of_not_mem {rules : List Diagnostic} {d : Diagnostic}
    (h : d.ruleCode ∉ codes rules) : addRule rules d = rules ++ [d] := by
  rw [addRule, if_neg]
  intro hany
  obtain ⟨r, hr, hcode⟩ := List.any_eq_true.mp hany
  exact h (List.mem_map.mpr ⟨r, hr, beq_iff_eq.mp hcode⟩)

namespace Catalogs

variable {ds rules : List Diagnostic}

/-- An entry breaks its rule. -/
theorem mem_of_mem (h : Catalogs ds rules) {r : Diagnostic} (hr : r ∈ rules) : r ∈ ds :=
  List.mem_of_find?_eq_some (h.first r hr)

theorem code_mem (h : Catalogs ds rules) {r : Diagnostic} (hr : r ∈ rules) :
    r.ruleCode ∈ codes ds :=
  List.mem_map_of_mem (h.mem_of_mem hr)

/-- The rules with an entry are those that were broken. -/
theorem mem_codes_iff (h : Catalogs ds rules) {code : String} :
    code ∈ codes rules ↔ code ∈ codes ds := by
  constructor
  · intro hcode
    obtain ⟨r, hr, rfl⟩ := List.mem_map.mp hcode
    exact h.code_mem hr
  · intro hcode
    obtain ⟨d, hd, rfl⟩ := List.mem_map.mp hcode
    exact h.covers d hd

/-- No rule has two entries. -/
theorem nodup (h : Catalogs ds rules) : (codes rules).Nodup := by
  refine List.pairwise_map.mpr (h.ordered.imp ?_)
  intro a b hab hsame
  rw [hsame] at hab
  exact Nat.lt_irrefl _ hab

/-- A finding more: it repeats a rule, or is the first of one. -/
theorem snoc (h : Catalogs ds rules) (d : Diagnostic) : Catalogs (ds ++ [d]) (addRule rules d) := by
  have hfirst : ∀ r ∈ rules, (ds ++ [d]).find? (fun e => e.ruleCode == r.ruleCode) = some r := by
    intro r hr
    rw [List.find?_append, h.first r hr]
    rfl
  have hplace : ∀ r ∈ rules,
      (codes (ds ++ [d])).idxOf r.ruleCode = (codes ds).idxOf r.ruleCode := by
    intro r hr
    rw [codes_append]
    exact List.idxOf_append_of_mem (h.code_mem hr)
  have hordered : rules.Pairwise fun a b =>
      (codes (ds ++ [d])).idxOf a.ruleCode < (codes (ds ++ [d])).idxOf b.ruleCode := by
    refine h.ordered.imp_of_mem ?_
    intro a b ha hb hab
    rw [hplace a ha, hplace b hb]
    exact hab
  by_cases hmem : d.ruleCode ∈ codes rules
  · rw [addRule_of_mem hmem]
    refine ⟨hfirst, ?_, hordered⟩
    intro e he
    rcases List.mem_append.mp he with he | he
    · exact h.covers e he
    · rw [List.mem_singleton.mp he]
      exact hmem
  · rw [addRule_of_not_mem hmem]
    have hnew : d.ruleCode ∉ codes ds := fun hd => hmem (h.mem_codes_iff.mpr hd)
    refine ⟨?_, ?_, ?_⟩
    · intro r hr
      rcases List.mem_append.mp hr with hr | hr
      · exact hfirst r hr
      · -- No finding before it has the rule, so the search comes as far as the new one.
        have hnone : ds.find? (fun e => e.ruleCode == d.ruleCode) = none := by
          rw [List.find?_eq_none]
          intro e he hcode
          exact hnew (List.mem_map.mpr ⟨e, he, beq_iff_eq.mp hcode⟩)
        rw [List.mem_singleton.mp hr, List.find?_append, hnone]
        simp
    · intro e he
      rw [codes_append]
      rcases List.mem_append.mp he with he | he
      · exact List.mem_append_left _ (h.covers e he)
      · rw [List.mem_singleton.mp he]
        exact List.mem_append_right _ (List.mem_singleton.mpr rfl)
    · refine List.pairwise_append.mpr ⟨hordered, List.pairwise_singleton _ _, ?_⟩
      intro a ha b hb
      rw [List.mem_singleton.mp hb, hplace a ha, codes_append, List.idxOf_append_of_notMem hnew]
      have hlt := List.idxOf_lt_length_of_mem (h.code_mem ha)
      omega

end Catalogs

/-- **The rules of a report are those that were broken, each by its first finding, in the order in
which they were first broken.** -/
theorem catalogs_ruleCatalog (ds : List Diagnostic) : Catalogs ds (ruleCatalog ds) := by
  induction ds using List.reverseRecOn with
  | nil => exact ⟨by simp [ruleCatalog], by simp, List.Pairwise.nil⟩
  | append_singleton ds d ih =>
    rw [ruleCatalog, List.foldl_append, List.foldl_cons, List.foldl_nil]
    exact ih.snoc d

end LintHost.Report
