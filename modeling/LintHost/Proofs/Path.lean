/-
Paths and their spellings.

A path is handed on as a text and read again by whoever takes it.  `ofString_toString` says that
this loses nothing: a path made of names is the path that its spelling spells.  What makes a text a
name is what reading leaves of the parts between slashes: it has no slash, it is not empty and it is
not a single point.

A normal path is absolute, made of names, and has no double point.  Normal paths are their own
normal form from every working directory, and no two of them have one spelling; so lists of normal
paths can be compared by their spellings.
-/
import LintHost.Path
import Mathlib.Algebra.BigOperators.Group.List.Basic
import Mathlib.Algebra.Order.Ring.Nat
import Mathlib.Data.List.Nodup
import Mathlib.Tactic.SplitIfs

namespace LintHost.Path

/-- Can stand between the slashes of a path. -/
structure IsName (n : String) : Prop where
  noSlash : '/' ∉ n.toList
  isName : isName n.toList = true

instance (n : String) : Decidable (IsName n) :=
  decidable_of_iff ('/' ∉ n.toList ∧ isName n.toList = true)
    ⟨fun h => ⟨h.1, h.2⟩, fun h => ⟨h.1, h.2⟩⟩

/-- Is absolute, made of names, and has no double point. -/
structure Normal (p : Path) : Prop where
  absolute : p.root ≠ .relative
  names : ∀ n ∈ p.names, IsName n
  clean : up ∉ p.names

theorem IsName.ne_nil {n : String} (h : IsName n) : n.toList ≠ [] := by
  intro hnil
  have hname := h.isName
  rw [hnil] at hname
  cases hname

theorem IsName.ne_empty {n : String} (h : IsName n) : n ≠ "" := by
  rintro rfl
  exact h.ne_nil rfl

theorem IsName.ne_point {n : String} (h : IsName n) : n ≠ "." := by
  rintro rfl
  exact absurd h.isName (by decide)

/-! ### Parts between slashes -/

theorem splitSlashes_slash (s : List Char) : splitSlashes ('/' :: s) = [] :: splitSlashes s := by
  rw [splitSlashes, if_pos rfl]

theorem splitSlashes_cons {c : Char} {s : List Char} (hc : c ≠ '/') {part : List Char}
    {more : List (List Char)} (hs : splitSlashes s = part :: more) :
    splitSlashes (c :: s) = (c :: part) :: more := by
  rw [splitSlashes, if_neg hc, hs]

/-- Even an empty text has a part. -/
theorem splitSlashes_ne_nil (s : List Char) : splitSlashes s ≠ [] := by
  fun_cases splitSlashes s <;> exact List.cons_ne_nil _ _

theorem splitSlashes_of_no_slash {s : List Char} (h : '/' ∉ s) : splitSlashes s = [s] := by
  induction s with
  | nil => rfl
  | cons c s ih =>
    obtain ⟨hc, hs⟩ := not_or.mp (fun hmem => h (List.mem_cons.mpr hmem))
    exact splitSlashes_cons (Ne.symm hc) (ih hs)

/-- The slash behind a part ends it. -/
theorem splitSlashes_append {s : List Char} (h : '/' ∉ s) (t : List Char) :
    splitSlashes (s ++ '/' :: t) = s :: splitSlashes t := by
  induction s with
  | nil => exact splitSlashes_slash t
  | cons c s ih =>
    obtain ⟨hc, hs⟩ := not_or.mp (fun hmem => h (List.mem_cons.mpr hmem))
    exact splitSlashes_cons (Ne.symm hc) (ih hs)

theorem no_slash_of_mem_splitSlashes {s part : List Char} (h : part ∈ splitSlashes s) :
    '/' ∉ part := by
  induction s generalizing part with
  | nil =>
    rw [List.mem_singleton.mp h]
    exact List.not_mem_nil
  | cons c s ih =>
    by_cases hc : c = '/'
    · rw [hc, splitSlashes_slash] at h
      rcases List.mem_cons.mp h with rfl | h
      · exact List.not_mem_nil
      · exact ih h
    · cases hs : splitSlashes s with
      | nil =>
        rw [splitSlashes, if_neg hc, hs] at h
        rw [List.mem_singleton.mp h, List.mem_singleton]
        exact Ne.symm hc
      | cons first more =>
        rw [splitSlashes_cons hc hs] at h
        rcases List.mem_cons.mp h with rfl | h
        · intro hmem
          rcases List.mem_cons.mp hmem with hslash | hmem
          · exact hc hslash.symm
          · exact ih (by rw [hs]; simp) hmem
        · exact ih (by rw [hs]; simp [h])

/-- Joined names come apart at the slashes between them. -/
theorem splitSlashes_joinNames {names : List String} (hne : names ≠ [])
    (h : ∀ n ∈ names, IsName n) : splitSlashes (joinNames names) = names.map String.toList := by
  fun_induction joinNames names with
  | case1 => exact absurd rfl hne
  | case2 n => exact splitSlashes_of_no_slash (h n (by simp)).noSlash
  | case3 n rest hrest ih =>
    rw [splitSlashes_append (h n (by simp)).noSlash, ih hrest fun m hm => h m (by simp [hm])]
    rfl

/-! ### Joined names -/

theorem mem_joinNames {names : List String} {c : Char} (hc : c ≠ '/') :
    c ∈ joinNames names ↔ ∃ n ∈ names, c ∈ n.toList := by
  fun_induction joinNames names with
  | case1 => simp
  | case2 n => simp
  | case3 n rest hrest ih =>
    rw [List.mem_append, List.mem_cons, ih]
    simp [hc]

theorem sum_le_length_joinNames (names : List String) :
    (names.map fun n => n.toList.length).sum ≤ (joinNames names).length := by
  fun_induction joinNames names with
  | case1 => exact Nat.le_refl _
  | case2 n => simp
  | case3 n rest hrest ih =>
    rw [List.map_cons, List.sum_cons, List.length_append, List.length_cons]
    omega

/-! ### Reading a spelling -/

/-- The names of a text. -/
theorem isName_of_mem_ofString {s n : String} (h : n ∈ (ofString s).names) : IsName n := by
  obtain ⟨part, hpart, rfl⟩ := List.mem_map.mp h
  obtain ⟨hmem, hname⟩ := List.mem_filter.mp hpart
  refine ⟨?_, ?_⟩
  · rw [String.toList_ofList]
    exact no_slash_of_mem_splitSlashes hmem
  · rw [String.toList_ofList]
    exact hname

/-- The part in front of a slash at the front is empty, and no name. -/
theorem filter_splitSlashes_slash (s : List Char) :
    (splitSlashes ('/' :: s)).filter isName = (splitSlashes s).filter isName := by
  rw [splitSlashes_slash]
  rfl

theorem filter_isName {names : List String} (h : ∀ n ∈ names, IsName n) :
    ((names.map String.toList).filter isName).map String.ofList = names := by
  have hkeep : (names.map String.toList).filter isName = names.map String.toList := by
    rw [List.filter_eq_self]
    intro part hpart
    obtain ⟨n, hn, rfl⟩ := List.mem_map.mp hpart
    exact (h n hn).isName
  rw [hkeep, List.map_map]
  exact List.map_id'' (fun n => String.ofList_toList) names

/-- Joined names start with no slash. -/
theorem joinNames_eq_cons {names : List String} (hne : names ≠ []) (h : ∀ n ∈ names, IsName n) :
    ∃ c s, joinNames names = c :: s ∧ c ≠ '/' := by
  cases names with
  | nil => exact absurd rfl hne
  | cons n rest =>
    obtain ⟨c, s, hn⟩ := List.exists_cons_of_ne_nil (h n (by simp)).ne_nil
    have hc : c ≠ '/' := by
      rintro rfl
      exact (h n (by simp)).noSlash (by rw [hn]; simp)
    cases rest with
    | nil => exact ⟨c, s, hn, hc⟩
    | cons m rest =>
      refine ⟨c, s ++ '/' :: joinNames (m :: rest), ?_, hc⟩
      rw [joinNames, hn]
      · rfl
      · simp

/-- **A path made of names is the path that its spelling spells.** -/
theorem ofString_toString {p : Path} (h : ∀ n ∈ p.names, IsName n) : ofString p.toString = p := by
  obtain ⟨root, names⟩ := p
  cases names with
  | nil => cases root <;> decide
  | cons n rest =>
    obtain ⟨c, s, hjoin, hc⟩ := joinNames_eq_cons (List.cons_ne_nil n rest) h
    have hsplit := splitSlashes_joinNames (List.cons_ne_nil n rest) h
    have hback := filter_isName h
    have htext : (toString ⟨root, n :: rest⟩).toList = rootText root ++ joinNames (n :: rest) := by
      rw [toString, if_neg (by simp), String.toList_ofList]
    have hroot : rootOf (rootText root ++ joinNames (n :: rest)) = root := by
      rw [hjoin]
      cases root <;> simp [rootText, rootOf, hc]
    have hnames : (splitSlashes (rootText root ++ joinNames (n :: rest))).filter isName =
        (splitSlashes (joinNames (n :: rest))).filter isName := by
      cases root with
      | relative => rfl
      | slash => exact filter_splitSlashes_slash _
      | doubleSlash =>
        exact (filter_splitSlashes_slash _).trans (filter_splitSlashes_slash _)
    rw [ofString, htext, hroot, hnames, hsplit, hback]

/-! ### Removing double points -/

/-- Names without double points are kept, and what comes behind them is removed from their end. -/
theorem collapseOnto_append {done front names : List String} (h : up ∉ front) :
    collapseOnto done (front ++ names) = collapseOnto (front.reverse ++ done) names := by
  induction front generalizing done with
  | nil => rfl
  | cons n rest ih =>
    have hn : n ≠ up := fun hup => h (by simp [hup])
    rw [List.cons_append, collapseOnto, if_neg hn, ih fun hr => h (by simp [hr])]
    simp

/-- A name at the end stays there. -/
theorem collapseOnto_snoc {done names : List String} {n : String} (h : n ≠ up) :
    collapseOnto done (names ++ [n]) = collapseOnto done names ++ [n] := by
  induction names generalizing done with
  | nil => simp [collapseOnto, h]
  | cons m rest ih =>
    rw [List.cons_append, collapseOnto, collapseOnto, ih, ih]
    split_ifs <;> rfl

/-! ### Normal paths -/

/-- Names of a normal path are names of the path or of the working directory. -/
theorem mem_collapseOnto {done names : List String} {n : String}
    (h : n ∈ collapseOnto done names) : n ∈ done ∨ n ∈ names := by
  induction names generalizing done with
  | nil => exact Or.inl (by simpa [collapseOnto] using h)
  | cons m rest ih =>
    rw [collapseOnto] at h
    by_cases hm : m = up
    · rw [if_pos hm] at h
      rcases ih h with hd | hr
      · exact Or.inl (List.mem_of_mem_drop hd)
      · exact Or.inr (by simp [hr])
    · rw [if_neg hm] at h
      rcases ih h with hd | hr
      · rcases List.mem_cons.mp hd with rfl | hd
        · exact Or.inr (by simp)
        · exact Or.inl hd
      · exact Or.inr (by simp [hr])

/-- A path followed by another has no other names than these two. -/
theorem mem_join_names {p q : Path} {n : String} (h : n ∈ (p.join q).names) :
    n ∈ p.names ∨ n ∈ q.names := by
  unfold join at h
  split_ifs at h
  · exact List.mem_append.mp h
  · exact Or.inr h

theorem mem_normalize_names {cwd p : Path} {n : String} (h : n ∈ (normalize cwd p).names) :
    n ∈ cwd.names ∨ n ∈ p.names := by
  unfold normalize at h
  by_cases hp : p.root = .relative
  · rw [if_pos hp] at h
    rcases mem_collapseOnto h with hd | hn
    · cases hd
    · rw [join, if_pos hp] at hn
      exact List.mem_append.mp hn
  · rw [if_neg hp] at h
    rcases mem_collapseOnto h with hd | hn
    · cases hd
    · exact Or.inr hn

/-- Double points are removed behind the working directory, or behind the root. -/
theorem normalize_names {cwd p : Path} (h : up ∉ cwd.names) :
    (normalize cwd p).names =
      collapseOnto (if p.root = .relative then cwd.names else []).reverse p.names := by
  unfold normalize
  by_cases hroot : p.root = .relative
  · simp only [if_pos hroot]
    rw [join, if_pos hroot]
    exact (collapseOnto_append h).trans (by rw [List.append_nil])
  · simp only [if_neg hroot]
    rfl

theorem names_subset_of_mem_ancestors {p dir : Path} (h : dir ∈ p.ancestors) :
    ∀ n ∈ dir.names, n ∈ p.names := by
  obtain ⟨k, -, rfl⟩ := List.mem_map.mp h
  intro n hn
  exact List.mem_of_mem_take hn

namespace Normal

variable {p q : Path}

theorem ofString_toString (h : p.Normal) : ofString p.toString = p := Path.ofString_toString h.names

/-- Normal paths that are spelled alike are the same. -/
theorem eq_of_toString (hp : p.Normal) (hq : q.Normal) (h : p.toString = q.toString) : p = q := by
  rw [← hp.ofString_toString, h, hq.ofString_toString]

/-- A normal path is its own normal form, from every working directory. -/
theorem normalize_eq (h : p.Normal) (cwd : Path) : normalize cwd p = p := by
  unfold normalize
  simp only [if_neg h.absolute, collapse_of_clean h.clean]

/-- The spelling of a normal path starts with a slash. -/
theorem toString_eq_cons (h : p.Normal) : ∃ s, p.toString.toList = '/' :: s := by
  rw [toString, if_neg (by simp [h.absolute]), String.toList_ofList]
  cases hroot : p.root with
  | relative => exact absurd hroot h.absolute
  | slash => exact ⟨_, rfl⟩
  | doubleSlash => exact ⟨_, rfl⟩

end Normal

/-- A normal form is normal, where the working directory has a place of its own. -/
theorem normal_normalize {cwd p : Path} (habs : cwd.root ≠ .relative)
    (hcwd : ∀ n ∈ cwd.names, IsName n) (hp : ∀ n ∈ p.names, IsName n) :
    (normalize cwd p).Normal := by
  refine ⟨?_, ?_, up_not_mem_collapse _⟩
  · unfold normalize
    by_cases hroot : p.root = .relative <;> simp [hroot, join, habs]
  · intro n hn
    rcases mem_normalize_names hn with hn | hn
    · exact hcwd n hn
    · exact hp n hn

theorem nodup_map_toString {ps : List Path} (h : ∀ p ∈ ps, p.Normal) (hnodup : ps.Nodup) :
    (ps.map toString).Nodup := by
  refine List.Nodup.map_on ?_ hnodup
  intro p hp q hq hpq
  exact (h p hp).eq_of_toString (h q hq) hpq

end LintHost.Path
