/-
What a unit is before analyzers run.

A unit is read, and the project around it is looked for.  `Readies` says what is then known of it: a
context, or why it cannot be read.  `Strands` says which units nothing is known of: those whose text
is no path, and those that can be read and whose project cannot be looked for.  Every unit does
exactly one of the two, and `prepare` gives exactly what they say.

How a unit can be read while its project cannot be looked for is what `strands_iff` tells.  A unit
is read by the path it was given with, and its project is looked for by the absolute one; so a unit
that lies deep enough in the working directory is within reach of the first and not of the second.
-/
import LintHost.Proofs.Engine.Slot
import LintHost.Proofs.Target.Nearest

namespace LintHost.Engine

/-- What is known of a unit before analyzers run. -/
inductive Readies (w : Workspace) (c : TargetsConfig) (unit : String) : Prepared → Prop
  /-- The unit cannot be read. -/
  | unreadable {f : OsFailure} (hopen : w.openFile (Path.ofString unit) = .error (.os f)) :
      Readies w c unit (.error f)
  /-- The unit is read, and its project looked for. -/
  | readable {file : File} {project : Option Path}
      (hopen : w.openFile (Path.ofString unit) = .ok file)
      (hproject : Target.nearestProject w c unit = .ok project) :
      Readies w c unit
        (.ok ⟨unit, String.ofList (Text.unifyBreaks (Text.Utf8.decodeLossy file.bytes)),
          project.map Path.toString⟩)

/-- A unit that no context can be made for, and that leaves a run without a result. -/
inductive Strands (w : Workspace) (c : TargetsConfig) (unit : String) : Failure → Prop
  /-- The text of the unit is no path. -/
  | unspellable {e : Failure}
      (hfault : Workspace.pathFault? (Path.ofString unit).toString = some e) : Strands w c unit e
  /-- The unit can be read, and looking for its project fails. -/
  | lost {file : File} {e : Failure} (hopen : w.openFile (Path.ofString unit) = .ok file)
      (hproject : Target.nearestProject w c unit = .error e) : Strands w c unit e

variable {w : Workspace} {c : TargetsConfig}

/-! ### Preparing a unit -/

theorem prepare_of_fault {unit : String} {e : Failure}
    (hfault : Workspace.pathFault? (Path.ofString unit).toString = some e) :
    (prepare w c unit).outcome = .error e := by
  have hopen := Workspace.openFile_of_fault (w := w) hfault
  have hread : w.readSource (Path.ofString unit) = .error e := by
    rw [Workspace.readSource, hopen]
    rfl
  unfold prepare
  rw [hread]
  cases e with
  | os f => exact absurd hfault Workspace.pathFault?_ne_os
  | _ => rfl

theorem prepare_of_unreadable {unit : String} {f : OsFailure}
    (hopen : w.openFile (Path.ofString unit) = .error (.os f)) :
    (prepare w c unit).outcome = .ok (.error f) := by
  have hread : w.readSource (Path.ofString unit) = .error (.os f) := by
    rw [Workspace.readSource, hopen]
    rfl
  unfold prepare
  rw [hread]
  rfl

/-- The context of a unit that can be read is made when its project has been looked for. -/
theorem prepare_of_readable {unit : String} {file : File}
    (hopen : w.openFile (Path.ofString unit) = .ok file) :
    (prepare w c unit).outcome =
      (fun project : Option Path => Except.ok
        ⟨unit, String.ofList (Text.unifyBreaks (Text.Utf8.decodeLossy file.bytes)),
          project.map Path.toString⟩) <$> Target.nearestProject w c unit := by
  have hread : w.readSource (Path.ofString unit) =
      .ok (Text.unifyBreaks (Text.Utf8.decodeLossy file.bytes)) := by
    rw [Workspace.readSource, hopen]
    rfl
  unfold prepare
  rw [hread]
  show (Journal.of (Target.nearestProject w c unit) >>= _).outcome = _
  rw [Journal.bind_outcome, Journal.of_outcome]
  cases Target.nearestProject w c unit <;> rfl

/-- A unit is prepared, or strands the run. -/
theorem readies_or_strands (w : Workspace) (c : TargetsConfig) (unit : String) :
    (∃ p, Readies w c unit p) ∨ ∃ e, Strands w c unit e := by
  cases hopen : w.openFile (Path.ofString unit) with
  | ok file =>
    cases hproject : Target.nearestProject w c unit with
    | ok project => exact Or.inl ⟨_, .readable hopen hproject⟩
    | error e => exact Or.inr ⟨_, .lost hopen hproject⟩
  | error e =>
    rcases Workspace.openFile_eq_error hopen with hfault | ⟨-, f, rfl⟩
    · exact Or.inr ⟨_, .unspellable hfault⟩
    · exact Or.inl ⟨_, .unreadable hopen⟩

theorem prepare_of_readies {unit : String} {p : Prepared} (h : Readies w c unit p) :
    (prepare w c unit).outcome = .ok p := by
  cases h with
  | unreadable hopen => exact prepare_of_unreadable hopen
  | readable hopen hproject =>
    rw [prepare_of_readable hopen, hproject]
    rfl

theorem prepare_of_strands {unit : String} {e : Failure} (h : Strands w c unit e) :
    (prepare w c unit).outcome = .error e := by
  cases h with
  | unspellable hfault => exact prepare_of_fault hfault
  | lost hopen hproject =>
    rw [prepare_of_readable hopen, hproject]
    rfl

theorem Readies.unique {unit : String} {p p' : Prepared} (h : Readies w c unit p)
    (h' : Readies w c unit p') : p = p' := by
  have hsame := prepare_of_readies h
  rw [prepare_of_readies h'] at hsame
  exact (Except.ok.inj hsame).symm

theorem Readies.not_strands {unit : String} {p : Prepared} (h : Readies w c unit p) (e : Failure) :
    ¬ Strands w c unit e := by
  intro he
  have hsame := prepare_of_readies h
  rw [prepare_of_strands he] at hsame
  cases hsame

theorem prepare_eq_ok_iff {unit : String} {p : Prepared} :
    (prepare w c unit).outcome = .ok p ↔ Readies w c unit p := by
  refine ⟨?_, prepare_of_readies⟩
  intro h
  rcases readies_or_strands w c unit with ⟨p', hp'⟩ | ⟨e, he⟩
  · rw [prepare_of_readies hp'] at h
    rw [← Except.ok.inj h]
    exact hp'
  · rw [prepare_of_strands he] at h
    cases h

theorem prepare_eq_error_iff {unit : String} {e : Failure} :
    (prepare w c unit).outcome = .error e ↔ Strands w c unit e := by
  refine ⟨?_, prepare_of_strands⟩
  intro h
  rcases readies_or_strands w c unit with ⟨p, hp⟩ | ⟨e', he'⟩
  · rw [prepare_of_readies hp] at h
    cases h
  · rw [prepare_of_strands he'] at h
    rw [← Except.error.inj h]
    exact he'

/-- **Where the working directory can be spelled, a unit strands a run by its text, or by lying too
deep.** -/
theorem strands_iff {unit : String} {e : Failure} (hcwd : ∀ n ∈ w.cwd, Spellable n) :
    Strands w c unit e ↔
      Workspace.pathFault? (Path.ofString unit).toString = some e ∨
      (∃ file, w.openFile (Path.ofString unit) = .ok file) ∧
        w.locate (w.normalize (Path.ofString unit)) = .error .nameTooLong ∧
        e = .os ⟨.nameTooLong, (w.normalize (Path.ofString unit)).toString⟩ := by
  have hspell : ∀ {file : File}, w.openFile (Path.ofString unit) = .ok file →
      Spellable (w.normalize (Path.ofString unit)).toString := by
    intro file hopen
    have hunit : Spellable (Path.ofString unit).toString := by
      rw [← Workspace.pathFault?_eq_none_iff]
      cases hfault : Workspace.pathFault? (Path.ofString unit).toString with
      | none => rfl
      | some d =>
        rw [Workspace.openFile_of_fault hfault] at hopen
        cases hopen
    rw [Path.spellable_toString]
    intro n hn
    rcases Path.mem_normalize_names hn with hn | hn
    · exact hcwd n hn
    · exact Path.spellable_toString.mp hunit n hn
  constructor
  · intro h
    cases h with
    | unspellable hfault => exact Or.inl hfault
    | lost hopen hproject =>
      exact Or.inr ⟨⟨_, hopen⟩, (Target.nearestProject_eq_error_iff (hspell hopen)).mp hproject⟩
  · rintro (hfault | ⟨⟨file, hopen⟩, htoo⟩)
    · exact .unspellable hfault
    · exact .lost hopen ((Target.nearestProject_eq_error_iff (hspell hopen)).mpr htoo)

/-! ### Preparing several -/

theorem prepareAll_eq_ok_iff {units : List String} {ps : List (String × Prepared)} :
    (prepareAll w c units).outcome = .ok ps ↔
      List.Forall₂ (fun u q => q.1 = u ∧ Readies w c u q.2) units ps := by
  rw [prepareAll_outcome, Outcome.mapM_eq_ok_iff]
  have hitem : ∀ u (q : String × Prepared),
      (u, ·) <$> (prepare w c u).outcome = .ok q ↔ q.1 = u ∧ Readies w c u q.2 := by
    intro u q
    obtain ⟨v, p⟩ := q
    rw [Outcome.map_eq_ok_iff]
    constructor
    · rintro ⟨p', hp', hq⟩
      obtain ⟨rfl, rfl⟩ := Prod.mk.inj hq
      exact ⟨rfl, prepare_eq_ok_iff.mp hp'⟩
    · rintro ⟨rfl, hp⟩
      exact ⟨p, prepare_eq_ok_iff.mpr hp, rfl⟩
  simp only [hitem]

theorem prepareAll_eq_error {units : List String} {e : Failure}
    (h : (prepareAll w c units).outcome = .error e) : ∃ u ∈ units, Strands w c u e := by
  rw [prepareAll_outcome, Outcome.mapM_eq_error_iff] at h
  obtain ⟨before, u, after, rfl, -, hu⟩ := h
  exact ⟨u, by simp, prepare_eq_error_iff.mp (Outcome.map_eq_error_iff.mp hu)⟩

end LintHost.Engine
