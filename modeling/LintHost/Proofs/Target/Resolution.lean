/-
What a resolution does with a target.

A resolution looks at its target twice, and what it sees decides everything after that: `kindAt` is
what it sees, and `unitsFor` is what it does about it.  `resolve_of_lookable` says so, and
`resolve_of_not_lookable` that a target which is too long to be looked at is not resolved at all.
The order of the tests of a name counts, since one name can be that of a solution and of a source.
-/
import LintHost.Proofs.Target.Descriptor

namespace LintHost.Target

open Outcome

/-- What a target is. -/
inductive Kind where
  | directory
  | nothing
  | solution
  | project
  | source
  | other
deriving DecidableEq, Repr

/-- What a file is by its name. -/
def fileKind (c : TargetsConfig) (p : Path) : Kind :=
  if isSolution c p then .solution
  else if isProject c p then .project
  else if isSource c p then .source
  else .other

/-- What is seen at a path. -/
def kindAt (w : Workspace) (c : TargetsConfig) (p : Path) : Kind :=
  if isTrue (w.isDir p) then .directory
  else if w.isThere p then fileKind c p
  else .nothing

/-- What is done about a target of some kind. -/
def unitsFor (w : Workspace) (c : TargetsConfig) (target : String) : Kind → Journal (List Path)
  | .directory => Journal.of (directorySources w c (Path.ofString target))
  | .nothing => (do Journal.note (.targetNotFound target); pure [])
  | .solution => solutionSources w c (Path.ofString target)
  | .project => projectSources w c (Path.ofString target)
  | .source => pure [w.normalize (Path.ofString target)]
  | .other => (do Journal.note (.targetNotAnalyzable target); pure [])

variable {w : Workspace} {c : TargetsConfig} {target : String}

/-- A file is dealt with by its name. -/
theorem unitsFor_fileKind (w : Workspace) (c : TargetsConfig) (target : String) :
    unitsFor w c target (fileKind c (Path.ofString target)) =
      if isSolution c (Path.ofString target) then solutionSources w c (Path.ofString target)
      else if isProject c (Path.ofString target) then projectSources w c (Path.ofString target)
      else if isSource c (Path.ofString target) then pure [w.normalize (Path.ofString target)]
      else (do Journal.note (.targetNotAnalyzable target); pure []) := by
  unfold fileKind
  split_ifs <;> rfl

theorem resolve_of_lookable (h : w.Lookable (Path.ofString target)) :
    resolve w c target = unitsFor w c target (kindAt w c (Path.ofString target)) := by
  obtain ⟨isDir, hdir⟩ := Workspace.exists_isDir_iff.mpr h
  obtain ⟨isFile, hfile⟩ := h
  rw [resolve, kindAt, Workspace.isThere_of_isFile hfile, hdir, hfile]
  cases isDir with
  | true => exact (Journal.pure_bind true _).trans rfl
  | false =>
    refine (Journal.pure_bind false _).trans ?_
    cases isFile with
    | false => exact (Journal.pure_bind false _).trans rfl
    | true =>
      refine (Journal.pure_bind true _).trans ?_
      exact (unitsFor_fileKind w c target).symm

theorem resolve_of_not_lookable (h : ¬ w.Lookable (Path.ofString target)) :
    resolve w c target =
      Journal.fail (.os ⟨.nameTooLong, (Path.ofString target).toString⟩) := by
  rw [Workspace.lookable_iff, not_not] at h
  have hdir : w.isDir (Path.ofString target) =
      .error (.os ⟨.nameTooLong, (Path.ofString target).toString⟩) :=
    Workspace.test_eq_error_iff.mpr ⟨h.1, h.2, rfl⟩
  rw [resolve, hdir]
  exact Journal.bind_error _ _ _ rfl

/-- **A target is resolved where it can be looked at and nothing ends what is done about it.** -/
theorem resolve_eq_ok_iff {units : List Path} :
    (resolve w c target).outcome = .ok units ↔
      w.Lookable (Path.ofString target) ∧
        (unitsFor w c target (kindAt w c (Path.ofString target))).outcome = .ok units := by
  by_cases h : w.Lookable (Path.ofString target)
  · rw [resolve_of_lookable h]
    exact ⟨fun hunits => ⟨h, hunits⟩, fun hunits => hunits.2⟩
  · rw [resolve_of_not_lookable h]
    constructor
    · intro hunits
      cases hunits
    · intro hunits
      exact absurd hunits.1 h

/-! ### Files -/

theorem kindAt_of_isFile {p : Path} (h : w.isFile p = .ok true) : kindAt w c p = fileKind c p := by
  rw [kindAt, Workspace.isThere_of_isFile h, Workspace.isDir_of_isFile h]
  rfl

/-- A file is resolved as its name says. -/
theorem resolve_of_isFile (h : w.isFile (Path.ofString target) = .ok true) :
    resolve w c target =
      if isSolution c (Path.ofString target) then solutionSources w c (Path.ofString target)
      else if isProject c (Path.ofString target) then projectSources w c (Path.ofString target)
      else if isSource c (Path.ofString target) then pure [w.normalize (Path.ofString target)]
      else (do Journal.note (.targetNotAnalyzable target); pure []) := by
  rw [resolve_of_lookable ⟨_, h⟩, kindAt_of_isFile h, unitsFor_fileKind]

/-- A file refers to projects as its name says. -/
theorem projectFiles_of_isFile (h : w.isFile (Path.ofString target) = .ok true) :
    projectFiles w c target =
      if isSolution c (Path.ofString target) then solutionProjects w c (Path.ofString target)
      else if isProject c (Path.ofString target) then pure [w.normalize (Path.ofString target)]
      else pure [] := by
  rw [projectFiles, Workspace.isDir_of_isFile h, h]
  exact (Journal.pure_bind false _).trans (Journal.pure_bind true _)

/-! ### What was seen -/

theorem isDir_of_kindAt {p : Path} (h : kindAt w c p = .directory) : w.isDir p = .ok true := by
  unfold kindAt fileKind at h
  split_ifs at h with hdir
  exact isTrue_iff.mp hdir

theorem isFile_of_kindAt {p : Path} {k : Kind} (h : kindAt w c p = k) (hdir : k ≠ .directory)
    (hnone : k ≠ .nothing) : w.isFile p = .ok true ∧ fileKind c p = k := by
  unfold kindAt at h
  split_ifs at h with hd hf
  · exact absurd h.symm hdir
  · exact ⟨isTrue_iff.mp hf, h⟩
  · exact absurd h.symm hnone

theorem isSource_of_fileKind {p : Path} (h : fileKind c p = .source) : isSource c p = true := by
  unfold fileKind at h
  split_ifs at h with hsolution hproject hsource
  exact hsource

/-! ### Directories -/

/-- A directory gives the sources of a walk below it. -/
theorem directorySources_eq_ok_iff {p : Path} {units : List Path} :
    directorySources w c p = .ok units ↔
      ∃ files, w.scan p c.excludePatterns c.respectGitignore = .ok files ∧
        units = dedupe ((files.filter (isSource c)).map w.normalize) := by
  rw [directorySources, bind_eq_ok_iff]
  simp only [Except.ok.injEq, eq_comm]

end LintHost.Target
