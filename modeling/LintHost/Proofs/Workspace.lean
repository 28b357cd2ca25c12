/-
How operations on files fail.

An operation fails for the text of its path, before any file is looked at, or in the file system.
`Spellable` is what a text needs to be a path: no half of a character, unless it is written for a
byte, and not the character U+0000.  Halves are told by their stand-ins here as everywhere.  A path
can be spelled when its names can, so a path made of names of other paths can be spelled when those
can.  In the file system a test fails in one way only, where the path is too long to be followed,
`test_eq_error_iff`; the operations that open something fail in every way there is.
-/
import LintHost.Workspace
import LintHost.Proofs.Path
import Mathlib.Tactic.SplitIfs
import Mathlib.Tactic.ByContra

namespace LintHost

namespace Text

theorem pathSize_append (s t : String) : pathSize (s ++ t) = pathSize s + pathSize t := by
  rw [pathSize, String.toList_append, List.flatMap_append, List.length_append, pathSize, pathSize]

/-- Every character has a byte in a path. -/
theorem length_le_pathSize (l : List Char) : l.length ≤ pathSize (String.ofList l) := by
  have hone (c : Char) : 1 ≤ (charBytes c).length := by
    unfold charBytes
    cases byte? c with
    | some b => exact Nat.le_refl 1
    | none => exact String.length_utf8EncodeChar c ▸ c.utf8Size_pos
  rw [pathSize, String.toList_ofList]
  induction l with
  | nil => exact Nat.zero_le _
  | cons c l ih =>
    have hc := hone c
    rw [List.flatMap_cons, List.length_append, List.length_cons]
    omega

end Text

/-- Can be part of a path. -/
def Spellable (n : String) : Prop := ∀ c ∈ n.toList, Text.isStray c = false ∧ c ≠ Char.ofNat 0

instance (n : String) : Decidable (Spellable n) := List.decidableBAll _ n.toList

namespace Path

/-- A path can be spelled exactly when its names can. -/
theorem spellable_toString {p : Path} : Spellable p.toString ↔ ∀ n ∈ p.names, Spellable n := by
  by_cases hhere : p.root = .relative && p.names.isEmpty
  · have hnames : p.names = [] := by
      rw [Bool.and_eq_true, List.isEmpty_iff] at hhere
      exact hhere.2
    rw [toString, if_pos hhere, hnames]
    exact ⟨fun _ n hn => absurd hn List.not_mem_nil, fun _ => by decide⟩
  · have htext : p.toString.toList = rootText p.root ++ joinNames p.names := by
      rw [toString, if_neg hhere, String.toList_ofList]
    have hslash : Text.isStray '/' = false ∧ '/' ≠ Char.ofNat 0 := by decide
    unfold Spellable
    rw [htext]
    constructor
    · intro h n hn c hc
      by_cases hcs : c = '/'
      · rw [hcs]
        exact hslash
      · exact h c (List.mem_append.mpr (Or.inr ((mem_joinNames hcs).mpr ⟨n, hn, hc⟩)))
    · intro h c hc
      by_cases hcs : c = '/'
      · rw [hcs]
        exact hslash
      · rcases List.mem_append.mp hc with hroot | hjoin
        · have hall : ∀ d ∈ rootText p.root, d = '/' := by
            cases p.root <;> simp [rootText]
          exact absurd (hall c hroot) hcs
        · obtain ⟨n, hn, hcn⟩ := (mem_joinNames hcs).mp hjoin
          exact h n hn c hcn

end Path

namespace Workspace

/-- A text that is no path cannot be spelled. -/
theorem pathFault?_eq_none_iff {s : String} : pathFault? s = none ↔ Spellable s := by
  have hnul : s.toList.contains (Char.ofNat 0) = true ↔ Char.ofNat 0 ∈ s.toList := by
    simp
  unfold pathFault? Spellable
  cases hstray : s.toList.any Text.isStray with
  | true =>
    obtain ⟨c, hc, hcs⟩ := List.any_eq_true.mp hstray
    refine ⟨fun h => (nomatch h), fun h => ?_⟩
    rw [(h c hc).1] at hcs
    cases hcs
  | false =>
    rw [List.any_eq_false] at hstray
    rw [if_neg Bool.false_ne_true]
    constructor
    · intro h c hc
      refine ⟨Bool.eq_false_of_not_eq_true (hstray c hc), ?_⟩
      rintro rfl
      rw [if_pos (hnul.mpr hc)] at h
      cases h
    · intro h
      refine if_neg fun hmem => ?_
      exact (h _ (hnul.mp hmem)).2 rfl

/-- A fault of a text is no failure of the file system. -/
theorem pathFault?_ne_os {s : String} {f : OsFailure} : pathFault? s ≠ some (.os f) := by
  unfold pathFault?
  split_ifs <;> simp

/-- A test fails where the path is too long to be followed, and nowhere else. -/
theorem test_eq_error_iff {w : Workspace} {p : Path} {holds : FileTree → Bool} {e : Failure} :
    w.test p holds = .error e ↔
      Spellable p.toString ∧ w.locate p = .error .nameTooLong ∧
        e = .os ⟨.nameTooLong, p.toString⟩ := by
  rw [← pathFault?_eq_none_iff, test]
  cases hfault : pathFault? p.toString with
  | some f => simp
  | none =>
    cases hloc : w.locate p with
    | ok there => simp
    | error cause => cases cause <;> simp [eq_comm]

/-- The spelling of a path has a byte for each character of its names. -/
theorem sum_le_pathSize {p : Path} (hnames : p.names ≠ []) :
    (p.names.map fun n => n.toList.length).sum ≤ Text.pathSize p.toString := by
  have htext : p.toString = String.ofList (Path.rootText p.root ++ Path.joinNames p.names) := by
    rw [Path.toString, if_neg]
    simp [hnames]
  have hbytes := Text.length_le_pathSize (Path.rootText p.root ++ Path.joinNames p.names)
  have hlength := Path.sum_le_length_joinNames p.names
  rw [List.length_append] at hbytes
  rw [htext]
  omega

/-- A path whose names have more characters than the longest path has bytes is too long. -/
theorem locate_of_long {w : Workspace} {p : Path}
    (h : maxPathBytes < (p.names.map fun n => n.toList.length).sum) :
    w.locate p = .error .nameTooLong := by
  have hnames : p.names ≠ [] := by
    intro hnil
    rw [hnil] at h
    cases h
  rw [locate, if_pos (Nat.lt_of_lt_of_le h (sum_le_pathSize hnames))]

theorem namesIn_eq_error {w : Workspace} {p : Path} {e : Failure} (h : w.namesIn p = .error e) :
    pathFault? p.toString = some e ∨ ∃ f, e = .os f := by
  unfold namesIn at h
  cases hfault : pathFault? p.toString with
  | some f =>
    rw [hfault] at h
    exact Or.inl (by rw [Except.error.inj h])
  | none =>
    rw [hfault] at h
    cases hloc : w.locate p with
    | error cause =>
      rw [hloc] at h
      exact Or.inr ⟨_, (Except.error.inj h).symm⟩
    | ok there =>
      obtain ⟨here, t⟩ := there
      rw [hloc] at h
      cases t with
      | dir es => cases h
      | file f => exact Or.inr ⟨_, (Except.error.inj h).symm⟩

/-- Opening a file fails for the text of the path, or in the file system. -/
theorem openFile_eq_error {w : Workspace} {p : Path} {e : Failure} (h : w.openFile p = .error e) :
    pathFault? p.toString = some e ∨ pathFault? p.toString = none ∧ ∃ f, e = .os f := by
  unfold openFile at h
  cases hfault : pathFault? p.toString with
  | some f =>
    rw [hfault] at h
    exact Or.inl (by rw [Except.error.inj h])
  | none =>
    rw [hfault] at h
    refine Or.inr ⟨rfl, ?_⟩
    cases hloc : w.locate p with
    | error cause =>
      rw [hloc] at h
      exact ⟨_, (Except.error.inj h).symm⟩
    | ok there =>
      obtain ⟨here, t⟩ := there
      rw [hloc] at h
      cases t with
      | file f => cases h
      | dir es => exact ⟨_, (Except.error.inj h).symm⟩

theorem openFile_of_fault {w : Workspace} {p : Path} {e : Failure}
    (h : pathFault? p.toString = some e) : w.openFile p = .error e := by
  unfold openFile
  rw [h]

end Workspace

end LintHost
