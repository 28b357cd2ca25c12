/-
Paths that can be followed from the root.

Around a path there are directories, up to the root: `ancestors_of_below` says which.  A path starts
with the spelling of each of them, so they are no longer than the path, `pathSize_le_behind`.

`Followable` paths are absolute, made of names of files, and short enough.  What a look at such a
path finds is what lies at its names in the tree, `Followable.test`, whether anything does or not;
and the directories around it can be followed as well.
-/
import LintHost.Proofs.Spelling

namespace LintHost

/-! ### Directories around a path -/

namespace Path

variable {p dir : Path}

theorem ancestors_of_root (h : p.names = []) : p.ancestors = [p] := by
  obtain ⟨root, names⟩ := p
  obtain rfl : names = [] := h
  rfl

theorem parent_child (dir : Path) (n : String) : (dir.child n).parent = dir := by
  rw [parent, child, List.dropLast_concat]

/-- Around a path there is the path itself, and what is around its parent. -/
theorem ancestors_of_below (h : p.names ≠ []) : p.ancestors = p :: p.parent.ancestors := by
  obtain ⟨m, hm⟩ := Nat.exists_eq_add_one_of_ne_zero (List.length_pos_iff.mpr h).ne'
  have hlength : p.parent.names.length = m := by
    rw [parent, List.length_dropLast, hm, Nat.add_sub_cancel]
  rw [ancestors, ancestors, hm, hlength, List.range_succ_eq_map, List.map_cons, List.map_map]
  congr 1
  · rw [Nat.sub_zero, ← hm, List.take_length]
  · refine List.map_congr_left fun k hk => ?_
    rw [Function.comp_apply, parent, List.dropLast_eq_take, hm, List.take_take]
    congr 2
    omega

theorem eq_behind_of_mem_ancestors (h : dir ∈ p.ancestors) : ∃ rest, p = dir.behind rest := by
  obtain ⟨k, -, rfl⟩ := List.mem_map.mp h
  refine ⟨p.names.drop (p.names.length - k), ?_⟩
  rw [behind, List.take_append_drop]

/-- A path starts with the spelling of every directory around it. -/
theorem pathSize_le_behind (habs : p.root ≠ .relative) (names : List String) :
    Text.pathSize p.toString ≤ Text.pathSize (p.behind names).toString := by
  by_cases hne : names = []
  · rw [hne, behind, List.append_nil]
  · have hspelled : p.toString.toList = rootText p.root ++ joinNames p.names := by
      rw [toString, if_neg (by simp [habs]), String.toList_ofList]
    obtain ⟨more, hmore⟩ : ∃ more, p.lead = p.toString.toList ++ more := by
      rw [hspelled, lead]
      split_ifs with hnames
      · exact ⟨[], by rw [hnames, joinNames, List.append_nil, List.append_nil]⟩
      · exact ⟨['/'], (List.append_assoc _ _ _).symm⟩
    have hfront : (p.behind names).toString =
        p.toString ++ String.ofList (more ++ joinNames names) := by
      rw [← String.toList_inj, toList_toString_behind p hne, hmore, String.toList_append,
        String.toList_ofList, List.append_assoc]
    rw [hfront, Text.pathSize_append]
    exact Nat.le_add_right _ _

theorem pathSize_joinNames_le (names : List String) :
    Text.pathSize (String.ofList (joinNames names)) ≤
      (names.map fun n => Text.pathSize n + 1).sum := by
  fun_induction joinNames names with
  | case1 => exact Nat.zero_le _
  | case2 n => simp
  | case3 n rest hrest ih =>
    have hsplit : String.ofList (n.toList ++ '/' :: joinNames rest) =
        n ++ "/" ++ String.ofList (joinNames rest) := by
      rw [← String.toList_inj]
      simp
    have hslash : Text.pathSize "/" = 1 := by decide
    rw [hsplit, Text.pathSize_append, Text.pathSize_append, List.map_cons,
      List.sum_cons, hslash]
    omega

/-- A path is no longer than its names with a slash for each, and one more. -/
theorem pathSize_toString_le (habs : p.root ≠ .relative) :
    Text.pathSize p.toString ≤ (p.names.map fun n => Text.pathSize n + 1).sum + 2 := by
  have hspelled : p.toString = String.ofList (rootText p.root) ++
      String.ofList (joinNames p.names) := by
    rw [toString, if_neg (by simp [habs]), String.ofList_append]
  have hroot : Text.pathSize (String.ofList (rootText p.root)) ≤ 2 := by
    cases p.root <;> decide
  have hnames := pathSize_joinNames_le p.names
  rw [hspelled, Text.pathSize_append]
  omega

end Path

namespace Workspace

variable {w : Workspace} {p : Path} {t : FileTree}

theorem Fits.of_mem_ancestors {dir : Path} (h : Fits p) (habs : p.root ≠ .relative)
    (hdir : dir ∈ p.ancestors) : Fits dir := by
  obtain ⟨rest, rfl⟩ := Path.eq_behind_of_mem_ancestors hdir
  exact Nat.le_trans (Path.pathSize_le_behind (p := dir) habs rest) h

/-- Can be followed by names of files from the root. -/
structure Followable (p : Path) : Prop where
  absolute : p.root ≠ .relative
  names : ∀ n ∈ p.names, FileName n
  fits : Fits p

namespace Followable

theorem spellable (h : Followable p) : Spellable p.toString :=
  Path.spellable_toString.mpr fun n hn => (h.names n hn).spellable

theorem leadsTo_root (h : p.root ≠ .relative) : w.LeadsTo ⟨p.root, []⟩ [] w.root := by
  have hspell : Spellable (Path.toString ⟨p.root, []⟩) :=
    Path.spellable_toString.mpr fun n hn => absurd hn List.not_mem_nil
  refine ⟨hspell, locate_eq_ok_iff.mpr ⟨?_, ?_, rfl⟩⟩
  · cases p.root <;> decide
  · rw [startOf, if_neg h]
    rfl

/-- A look at such a path finds what lies there in the tree. -/
theorem test (h : Followable p) (holds : FileTree → Bool) :
    w.test p holds = .ok ((w.root.find? p.names).any holds) :=
  (leadsTo_root h.absolute).test_behind h.names h.fits holds

theorem leadsTo (h : Followable p) (ht : w.root.find? p.names = some t) :
    w.LeadsTo p p.names t := by
  have hroot := leadsTo_root (w := w) h.absolute
  exact ⟨h.spellable, (hroot.locate_behind h.fits).trans (hroot.reach_of_find? h.names ht)⟩

theorem isDir_eq_true_iff (h : Followable p) :
    w.isDir p = .ok true ↔ ∃ es, w.root.find? p.names = some (.dir es) := by
  rw [isDir, h.test]
  cases w.root.find? p.names with
  | none => simp
  | some t => cases t <;> simp [FileTree.isDir]

theorem namesIn (h : Followable p) {es : List (String × FileTree)}
    (hdir : w.root.find? p.names = some (.dir es)) : w.namesIn p = .ok (es.map Prod.fst) := by
  have hleads := h.leadsTo hdir
  rw [Workspace.namesIn, pathFault?_eq_none_iff.mpr hleads.spellable, hleads.located]

theorem namesIn_of_not_dir (h : Followable p)
    (hnot : ∀ es, w.root.find? p.names ≠ some (.dir es)) : ∃ f, w.namesIn p = .error (.os f) := by
  have hspell : pathFault? p.toString = none := pathFault?_eq_none_iff.mpr h.spellable
  cases hnames : w.namesIn p with
  | error e =>
    rcases namesIn_eq_error hnames with hfault | ⟨f, rfl⟩
    · rw [hspell] at hfault
      cases hfault
    · exact ⟨f, rfl⟩
  | ok names =>
    rw [Workspace.namesIn, hspell] at hnames
    have hlocate : w.locate p = w.reach [] p.names :=
      (leadsTo_root h.absolute).locate_behind h.fits
    cases hfind : w.root.find? p.names with
    | none =>
      obtain ⟨e, he, -⟩ := (leadsTo_root (w := w) h.absolute).reach_of_gone h.names hfind
      rw [hlocate, he] at hnames
      cases hnames
    | some t =>
      rw [(h.leadsTo hfind).located] at hnames
      cases t with
      | file f => cases hnames
      | dir es => exact absurd hfind (hnot es)

theorem of_mem_ancestors {dir : Path} (h : Followable p) (hdir : dir ∈ p.ancestors) :
    Followable dir := by
  refine ⟨?_, fun n hn => h.names n (Path.names_subset_of_mem_ancestors hdir n hn),
    h.fits.of_mem_ancestors h.absolute hdir⟩
  obtain ⟨rest, rfl⟩ := Path.eq_behind_of_mem_ancestors hdir
  exact h.absolute

theorem normal (h : Followable p) : p.Normal :=
  ⟨h.absolute, fun n hn => (h.names n hn).isName, fun hup => (h.names _ hup).notUp rfl⟩

end Followable

end Workspace

end LintHost
