/-
When looking for the nearest project fails.

Looking for a project never fails for what is in the directories: one that cannot be listed, or that
holds something that cannot be looked at, counts as one without a project.  What is left is the look
at the unit itself, from which the search starts.  `nearestProject_eq_error_iff` says that it fails
where the absolute path of the unit is too long to be followed, and nowhere else, as long as the
path can be spelled; a path that can, has only directories around it that can be spelled too.
-/
import LintHost.Target
import LintHost.Proofs.Outcome
import LintHost.Proofs.Workspace

namespace LintHost

namespace Target

variable {w : Workspace} {c : TargetsConfig}

/-- Listing the projects of a directory fails for the directory's text, or in the file system. -/
theorem projectNames_eq_error {dir : Path} {e : Failure} (h : projectNames w c dir = .error e) :
    Workspace.pathFault? dir.toString = some e ∨ ∃ f, e = .os f := by
  unfold projectNames at h
  cases hnames : w.namesIn dir with
  | error d =>
    rw [hnames] at h
    rw [← Except.error.inj h]
    exact Workspace.namesIn_eq_error hnames
  | ok names =>
    rw [hnames] at h
    obtain ⟨n, -, hn⟩ := Outcome.filterM_eq_error h
    cases hfile : w.isFile (dir.child n) with
    | error d =>
      rw [hfile] at hn
      obtain ⟨-, -, rfl⟩ := Workspace.test_eq_error_iff.mp hfile
      exact Or.inr ⟨_, (Except.error.inj hn).symm⟩
    | ok b =>
      rw [hfile] at hn
      cases hn

/-- A directory that can be spelled has a project or has none, whatever is in it. -/
theorem projectIn_ok {dir : Path} (h : Spellable dir.toString) :
    ∃ p, projectIn w c dir = .ok p := by
  unfold projectIn
  cases hnames : projectNames w c dir with
  | ok names => exact ⟨_, rfl⟩
  | error e =>
    rcases projectNames_eq_error hnames with hfault | ⟨f, rfl⟩
    · rw [Workspace.pathFault?_eq_none_iff.mpr h] at hfault
      cases hfault
    · exact ⟨none, rfl⟩

theorem firstProject_ok {dirs : List Path} (h : ∀ dir ∈ dirs, Spellable dir.toString) :
    ∃ p, firstProject w c dirs = .ok p := by
  induction dirs with
  | nil => exact ⟨none, rfl⟩
  | cons dir rest ih =>
    obtain ⟨p, hp⟩ := projectIn_ok (w := w) (c := c) (h dir (by simp))
    rw [firstProject, hp]
    cases p with
    | some q => exact ⟨some q, rfl⟩
    | none => exact ih fun d hd => h d (by simp [hd])

/-- The search from a place: in its directory, or in the directory it is in, and upwards. -/
theorem nearestProject_eq (unit : String) :
    nearestProject w c unit = (do
      let b ← w.isDir (w.normalize (Path.ofString unit))
      firstProject w c
        (if b then w.normalize (Path.ofString unit)
          else (w.normalize (Path.ofString unit)).parent).ancestors) :=
  rfl

/-- **Looking for the project of a unit fails where the unit's absolute path is too long to be
followed, and nowhere else.** -/
theorem nearestProject_eq_error_iff {unit : String} {e : Failure}
    (hspell : Spellable (w.normalize (Path.ofString unit)).toString) :
    nearestProject w c unit = .error e ↔
      w.locate (w.normalize (Path.ofString unit)) = .error .nameTooLong ∧
        e = .os ⟨.nameTooLong, (w.normalize (Path.ofString unit)).toString⟩ := by
  rw [nearestProject_eq]
  generalize w.normalize (Path.ofString unit) = start at hspell ⊢
  have hisDir : w.isDir start = .error e ↔
      w.locate start = .error .nameTooLong ∧ e = .os ⟨.nameTooLong, start.toString⟩ := by
    rw [Workspace.isDir, Workspace.test_eq_error_iff]
    exact and_iff_right hspell
  rw [← hisDir]
  cases hdir : w.isDir start with
  | error d =>
    constructor
    · intro h
      have hfail : (Except.error d : Except Failure (Option Path)) = .error e := h
      rw [Except.error.inj hfail]
    · intro h
      rw [Except.error.inj h]
      rfl
  | ok b =>
    have hnames : ∀ n ∈ (if b then start else start.parent).names, n ∈ start.names := by
      intro n hn
      cases b with
      | true => exact hn
      | false => exact List.dropLast_subset _ hn
    have hspellable : ∀ dir ∈ (if b then start else start.parent).ancestors,
        Spellable dir.toString := by
      intro dir hmem
      rw [Path.spellable_toString]
      intro n hn
      have hn' := hnames n (Path.names_subset_of_mem_ancestors hmem n hn)
      exact Path.spellable_toString.mp hspell n hn'
    obtain ⟨p, hp⟩ := firstProject_ok (w := w) (c := c) hspellable
    constructor
    · intro h
      have hok : firstProject w c (if b then start else start.parent).ancestors = .error e := h
      rw [hp] at hok
      cases hok
    · intro h
      cases h

end Target

end LintHost
