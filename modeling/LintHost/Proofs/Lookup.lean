/-
What a path names, and what its normal form names.

A path is looked up by walking, and a normal form is found by its names alone.  In a workspace that
can be, they come to the same: whatever a path leads to lies where the names of its normal form lead
from the root, `Sound.locate`.  From there the normal form leads to it as well, from every working
directory, as long as it is not longer than a path may be, `locate_of_find?`.

That last proviso is the only one.  A path from the working directory can be short where its normal
form, which starts at the root, is too long to be followed.
-/
import LintHost.Proofs.FileTree

namespace LintHost.Workspace

/-- Can be: the tree has names of files, and the working directory is a directory of the tree. -/
structure Sound (w : Workspace) : Prop where
  proper : w.root.Proper
  cwd : ∃ es, w.root.find? w.cwd = some (.dir es)

/-- The place from which a path starts. -/
def startOf (w : Workspace) (p : Path) : List String := if p.root = .relative then w.cwd else []

variable {w : Workspace} {p : Path}

theorem reach_eq_ok_iff {here names place : List String} {t : FileTree} :
    w.reach here names = .ok (place, t) ↔
      w.root.walk here names = .ok place ∧ w.root.find? place = some t := by
  rw [reach]
  cases hwalk : w.root.walk here names with
  | error e => simp
  | ok there =>
    cases hfind : w.root.find? there with
    | none =>
      constructor
      · intro h
        simp only [hfind] at h
        cases h
      · rintro ⟨hsame, hsome⟩
        rw [← Except.ok.inj hsame, hfind] at hsome
        cases hsome
    | some s =>
      simp only [hfind]
      constructor
      · intro h
        obtain ⟨rfl, rfl⟩ := Prod.mk.inj (Except.ok.inj h)
        exact ⟨rfl, hfind⟩
      · rintro ⟨hsame, hsome⟩
        obtain rfl := Except.ok.inj hsame
        rw [Option.some.inj (hfind.symm.trans hsome)]

theorem locate_eq_ok_iff {there : List String} {t : FileTree} :
    w.locate p = .ok (there, t) ↔ Text.pathSize p.toString ≤ maxPathBytes ∧
      w.root.walk (w.startOf p) p.names = .ok there ∧ w.root.find? there = some t := by
  rw [locate, ← startOf]
  by_cases hlong : Text.pathSize p.toString > maxPathBytes
  · rw [if_pos hlong]
    exact iff_of_false (by simp) fun h => absurd hlong (Nat.not_lt.mpr h.1)
  · rw [if_neg hlong, reach_eq_ok_iff]
    exact (and_iff_right (Nat.not_lt.mp hlong)).symm

/-- What a text names in the tree as it is written.  Every part is looked up in turn, and an empty
text names nothing. -/
structure Names (w : Workspace) (s : String) (place : List String) (t : FileTree) : Prop where
  written : s ≠ ""
  walked : w.root.walk (w.startOf (Path.ofString s))
    ((Path.splitSlashes s.toList).map String.ofList) = .ok place
  found : w.root.find? place = some t

/-- A text that is short enough leads to what it names. -/
theorem locateText_eq_ok_iff {s : String} {place : List String} {t : FileTree} :
    w.locateText s = .ok (place, t) ↔ Text.pathSize s ≤ maxPathBytes ∧ w.Names s place t := by
  rw [locateText]
  by_cases hempty : s.isEmpty = true
  · rw [if_pos hempty]
    exact iff_of_false (by simp) fun h => h.2.written (String.isEmpty_iff.mp hempty)
  · rw [if_neg hempty]
    by_cases hlong : Text.pathSize s > maxPathBytes
    · rw [if_pos hlong]
      exact iff_of_false (by simp) fun h => absurd hlong (Nat.not_lt.mpr h.1)
    · rw [if_neg hlong, reach_eq_ok_iff]
      constructor
      · rintro ⟨hwalk, hfind⟩
        exact ⟨Nat.not_lt.mp hlong, fun h => hempty (String.isEmpty_iff.mpr h), hwalk, hfind⟩
      · rintro ⟨-, hnames⟩
        exact ⟨hnames.walked, hnames.found⟩

theorem test_of_locate {there : List String} {t : FileTree} (hspell : Spellable p.toString)
    (h : w.locate p = .ok (there, t)) (holds : FileTree → Bool) :
    w.test p holds = .ok (holds t) := by
  rw [test, pathFault?_eq_none_iff.mpr hspell, h]

/-- A path leads to a file where it says so. -/
theorem isFile_eq_true_iff :
    w.isFile p = .ok true ↔
      Spellable p.toString ∧ ∃ there f, w.locate p = .ok (there, .file f) := by
  rw [← pathFault?_eq_none_iff, isFile, test]
  cases hfault : pathFault? p.toString with
  | some e => simp
  | none =>
    cases hloc : w.locate p with
    | error e => cases e <;> simp
    | ok place =>
      obtain ⟨there, t⟩ := place
      cases t <;> simp [FileTree.isFile]

theorem openFile_eq_ok_iff {f : File} :
    w.openFile p = .ok f ↔ Spellable p.toString ∧ ∃ there, w.locate p = .ok (there, .file f) := by
  rw [← pathFault?_eq_none_iff, openFile]
  cases hfault : pathFault? p.toString with
  | some e => simp
  | none =>
    cases hloc : w.locate p with
    | error e => simp
    | ok place =>
      obtain ⟨there, t⟩ := place
      cases t <;> simp

theorem isFile_of_openFile {f : File} (h : w.openFile p = .ok f) : w.isFile p = .ok true := by
  obtain ⟨hspell, there, hloc⟩ := openFile_eq_ok_iff.mp h
  exact isFile_eq_true_iff.mpr ⟨hspell, there, f, hloc⟩

/-- A file is no directory. -/
theorem isDir_of_isFile (h : w.isFile p = .ok true) : w.isDir p = .ok false := by
  obtain ⟨hspell, there, f, hloc⟩ := isFile_eq_true_iff.mp h
  exact test_of_locate hspell hloc FileTree.isDir

theorem openFile_of_isFile (h : w.isFile p = .ok true) : ∃ f, w.openFile p = .ok f := by
  obtain ⟨hspell, there, f, hloc⟩ := isFile_eq_true_iff.mp h
  exact ⟨f, openFile_eq_ok_iff.mpr ⟨hspell, there, hloc⟩⟩

namespace Sound

theorem start (hw : w.Sound) (p : Path) : ∃ es, w.root.find? (w.startOf p) = some (.dir es) := by
  obtain ⟨es, hcwd⟩ := hw.cwd
  unfold startOf
  by_cases hroot : p.root = .relative
  · rw [if_pos hroot]
    exact ⟨es, hcwd⟩
  · rw [if_neg hroot]
    cases hdir : w.root with
    | dir es' => exact ⟨es', rfl⟩
    | file f =>
      -- Not even the working directory is below a file.
      rw [hdir] at hcwd
      cases hnames : w.cwd with
      | nil =>
        rw [hnames] at hcwd
        cases hcwd
      | cons n rest =>
        rw [hnames] at hcwd
        cases hcwd

theorem cwd_names (hw : w.Sound) : ∀ n ∈ w.cwd, FileName n := by
  obtain ⟨es, hcwd⟩ := hw.cwd
  exact hw.proper.of_find? hcwd

/-- Removing double points starts where the path starts. -/
theorem normalize_names (hw : w.Sound) (p : Path) :
    (w.normalize p).names = Path.collapseOnto (w.startOf p).reverse p.names :=
  Path.normalize_names fun hup => (hw.cwd_names _ hup).notUp rfl

/-- **What a path leads to lies where its normal form says.** -/
theorem locate (hw : w.Sound) (hp : ∀ n ∈ p.names, Path.IsName n) {there : List String}
    {t : FileTree} (h : w.locate p = .ok (there, t)) :
    w.root.find? (w.normalize p).names = some t := by
  obtain ⟨-, hwalk, hfind⟩ := locate_eq_ok_iff.mp h
  rw [hw.normalize_names, ← FileTree.walk_eq_collapseOnto hp hwalk]
  exact hfind

theorem normal (hw : w.Sound) (hp : ∀ n ∈ p.names, Path.IsName n) : (w.normalize p).Normal :=
  Path.normal_normalize (show Root.slash ≠ .relative by decide)
    (fun n hn => (hw.cwd_names n hn).isName) hp

/-- The normal form of a file has the file's name. -/
theorem normalize_name (hw : w.Sound) (hp : ∀ n ∈ p.names, Path.IsName n) {there : List String}
    {f : File} (h : w.locate p = .ok (there, .file f)) : (w.normalize p).name = p.name := by
  obtain ⟨-, hwalk, hfind⟩ := locate_eq_ok_iff.mp h
  obtain ⟨es, hstart⟩ := hw.start p
  obtain ⟨front, n, hnames, hup⟩ := FileTree.exists_snoc_of_walk hp hstart hwalk hfind
  rw [Path.name, hw.normalize_names, hnames, Path.collapseOnto_snoc hup, Path.name, hnames]
  simp

end Sound

/-- **What lies where a normal path says is what the path leads to, if it is not too long.** -/
theorem locate_of_find? (hp : p.Normal) {t : FileTree} (hn : ∀ n ∈ p.names, FileName n)
    (h : w.root.find? p.names = some t) (hfits : Text.pathSize p.toString ≤ maxPathBytes) :
    w.locate p = .ok (p.names, t) := by
  rw [locate_eq_ok_iff, startOf, if_neg hp.absolute]
  exact ⟨hfits, FileTree.walk_of_find? hn h, h⟩

end LintHost.Workspace
