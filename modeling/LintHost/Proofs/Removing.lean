/-
What removing a file leaves.

Taking a file out of a tree leaves everything else where it lies, `lies_erase_of_ne`.  Walks go
through directories only, and a directory stays one when a file is taken out of it: so a walk that
led to the file leads to nothing, and every other walk arrives where it arrived before, `walk_gone`.

A path to another file therefore leads there as before, and what it opens is the same; a path to the
removed file leads nowhere, however it is spelled.
-/
import LintHost.Proofs.Table
import LintHost.Proofs.Writing

namespace LintHost

open Table

namespace FileTree

/-! ### Taking a file out of a tree -/

/-- What leads to a file is a directory with an entry of the first name. -/
theorem dir_of_find?_cons {t s : FileTree} {n : String} {rest : List String}
    (h : t.find? (n :: rest) = some s) :
    ∃ es below, t = .dir es ∧ es.lookup n = some below ∧ below.find? rest = some s := by
  cases t with
  | file f => cases h
  | dir es =>
    rw [find?, entries] at h
    cases hl : es.lookup n with
    | none =>
      rw [hl] at h
      cases h
    | some below =>
      rw [hl] at h
      exact ⟨es, below, rfl, hl, h⟩

theorem erase_cons {es : List (String × FileTree)} {below : FileTree} {n k : String}
    {rest : List String} (h : es.lookup n = some below) :
    (FileTree.dir es).erase (n :: k :: rest) = .dir (putEntry n (below.erase (k :: rest)) es) := by
  rw [erase, entries, h]
  simp

theorem lies_erase_self {t : FileTree} {place : List String} {f : File} (hne : place ≠ [])
    (h : t.find? place = some (.file f)) : (t.erase place).lies place = none := by
  induction place generalizing t with
  | nil => exact absurd rfl hne
  | cons n rest ih =>
    obtain ⟨es, below, rfl, hl, hbelow⟩ := dir_of_find?_cons h
    cases rest with
    | nil =>
      rw [erase, lies, find?, entries, entries, lookup_filter_ne, if_pos rfl, Option.map_none]
    | cons k rest =>
      rw [erase_cons hl, lies, find?, entries, lookup_putEntry_self]
      exact ih (List.cons_ne_nil _ _) hbelow

/-- **Taking a file out of a tree changes nothing elsewhere.** -/
theorem lies_erase_of_ne {t : FileTree} {place names : List String} {f : File}
    (h : t.find? place = some (.file f)) (hne : names ≠ place) :
    (t.erase place).lies names = t.lies names := by
  induction place generalizing t names with
  | nil => rw [erase]
  | cons n rest ih =>
    obtain ⟨es, below, rfl, hl, hbelow⟩ := dir_of_find?_cons h
    cases names with
    | nil =>
      cases rest with
      | nil => rfl
      | cons k rest =>
        rw [erase_cons hl]
        rfl
    | cons m names =>
      by_cases hm : m = n
      · subst hm
        have hnames : names ≠ rest := fun hsame => hne (by rw [hsame])
        cases rest with
        | nil =>
          -- The file is the entry itself, and nothing lies below a file.
          obtain rfl : below = .file f := Option.some.inj hbelow
          obtain ⟨k, more, rfl⟩ := List.exists_cons_of_ne_nil hnames
          rw [erase, lies, lies, find?, find?, entries, entries, lookup_filter_ne, if_pos rfl, hl]
          rfl
        | cons k rest =>
          rw [erase_cons hl, lies, lies, find?, find?, entries, entries, lookup_putEntry_self, hl]
          exact ih hbelow hnames
      · cases rest with
        | nil =>
          rw [erase, lies, lies, find?, find?, entries, entries, lookup_filter_ne, if_neg hm]
        | cons k rest =>
          rw [erase_cons hl, lies, lies, find?, find?, entries, entries, lookup_putEntry_of_ne hm]

theorem lies_eq_file_iff {t : FileTree} {names : List String} {f : File} :
    t.lies names = some (some f) ↔ t.find? names = some (.file f) := by
  unfold lies
  cases t.find? names with
  | none => simp
  | some s => cases s <;> simp [outside]

/-! ### Walks in a tree that a file is gone from -/

/-- No walk goes on from a file. -/
theorem eq_nil_of_walk_file {root : FileTree} {here there names : List String} {f : File}
    (hfile : root.find? here = some (.file f)) (h : root.walk here names = .ok there) :
    names = [] := by
  cases names with
  | nil => rfl
  | cons n rest =>
    rw [walk, hfile] at h
    cases h

/-- **A walk that led to the file leads to nothing, and any other arrives where it arrived.** -/
theorem walk_gone {root root' : FileTree} {place here there names : List String} {f : File}
    (hsame : ∀ q, q ≠ place → root'.lies q = root.lies q)
    (hfile : root.find? place = some (.file f)) (hgone : root'.lies place = none)
    (hhere : root.lies here = some none) (h : root.walk here names = .ok there) :
    root'.walk here names = if there = place then .error .missing else .ok there := by
  -- The induction is on the names that are left; what it keeps is that `here` is a directory.
  have hne : ∀ q, root.lies q = some none → q ≠ place := by
    rintro q hq rfl
    rw [lies_eq_file_iff.mpr hfile] at hq
    cases hq
  induction names generalizing here with
  | nil =>
    rw [walk] at h ⊢
    obtain rfl := Except.ok.inj h
    rw [if_neg (hne here hhere)]
  | cons n rest ih =>
    obtain ⟨es, next, hes, hstep, hwalk⟩ := step_of_walk h
    obtain ⟨es', hes'⟩ := lies_eq_dir_iff.mp ((hsame here (hne here hhere)).trans hhere)
    cases hstep with
    | stay hstay =>
      rw [walk_of_step hes' (.stay hstay)]
      exact ih hhere hwalk
    | up hup =>
      obtain ⟨above, habove⟩ := dropLast_of_find? hes
      rw [walk_of_step hes' (.up hup)]
      exact ih (lies_eq_dir_iff.mpr ⟨above, habove⟩) hwalk
    | down hstay hup hshort hentry =>
      by_cases hplace : here ++ [n] = place
      · -- The step to the removed file: the walk ended there.
        rw [hplace] at hwalk
        obtain rfl := eq_nil_of_walk_file hfile hwalk
        rw [walk] at hwalk
        have hnone : root'.find? (here ++ [n]) = none := by
          rw [hplace]
          exact Option.map_eq_none_iff.mp hgone
        rw [walk_of_gone hes' hstay hup hshort hnone, if_pos (Except.ok.inj hwalk).symm]
      · have hkept : (root'.find? (here ++ [n])).isSome = true := by
          rw [← isSome_lies, hsame _ hplace, isSome_lies, hentry]
        rw [walk_of_step hes' (.down hstay hup hshort hkept)]
        obtain ⟨t, ht⟩ := Option.isSome_iff_exists.mp hentry
        cases t with
        | dir below => exact ih (lies_eq_dir_iff.mpr ⟨below, ht⟩) hwalk
        | file g =>
          obtain rfl := eq_nil_of_walk_file ht hwalk
          rw [walk] at hwalk ⊢
          obtain rfl := Except.ok.inj hwalk
          rw [if_neg hplace]

end FileTree

namespace Workspace

variable {w w' : Workspace} {p : Path} {place there : List String} {f g : File}

/-- What a path is told to be and what it opens follow from where it leads. -/
theorem isFile_congr (h : w'.locate p = w.locate p) : w'.isFile p = w.isFile p := by
  rw [isFile, isFile, test, test, h]

theorem openFile_congr (h : w'.locate p = w.locate p) : w'.openFile p = w.openFile p := by
  rw [openFile, openFile, h]

/-- The workspace without what lies at a place. -/
def without (w : Workspace) (place : List String) : Workspace :=
  { w with root := w.root.erase place }

/-- The second workspace is the first one without a file of it. -/
structure Lacks (place : List String) (f : File) (w w' : Workspace) : Prop where
  sameBut : SameBut place w w'
  file : w.root.find? place = some (.file f)
  gone : w'.root.lies place = none

theorem lacks_without (hw : w.Sound) (h : w.root.find? place = some (.file f)) :
    Lacks place f w (w.without place) := by
  refine ⟨⟨rfl, rfl, fun q hq => FileTree.lies_erase_of_ne h hq⟩, h, ?_⟩
  refine FileTree.lies_erase_self ?_ h
  rintro rfl
  -- The root is a directory, since the working directory is one.
  obtain ⟨es, hroot⟩ := hw.start ⟨.slash, []⟩
  have hdir : w.root.find? [] = some (.dir es) := hroot
  rw [hdir] at h
  cases h

namespace Lacks

theorem startOf_eq (h : Lacks place f w w') : w'.startOf p = w.startOf p := by
  unfold startOf
  rw [h.sameBut.cwd]

theorem walk (h : Lacks place f w w') (hw : w.Sound)
    (hwalk : w.root.walk (w.startOf p) p.names = .ok there) :
    w'.root.walk (w'.startOf p) p.names =
      if there = place then .error .missing else .ok there := by
  rw [h.startOf_eq]
  exact FileTree.walk_gone h.sameBut.lies h.file h.gone
    (FileTree.lies_eq_dir_iff.mpr (hw.start p)) hwalk

/-- A path to the removed file leads nowhere. -/
theorem isFile_self (h : Lacks place f w w') (hw : w.Sound)
    (hloc : w.locate p = .ok (place, .file g)) : w'.isFile p = .ok false := by
  obtain ⟨hshort, hwalk, -⟩ := locate_eq_ok_iff.mp hloc
  have hmissing : w'.locate p = .error .missing := by
    rw [locate, if_neg (Nat.not_lt.mpr hshort), reach, ← startOf, h.walk hw hwalk, if_pos rfl]
  rw [isFile, test, hmissing]
  cases pathFault? p.toString <;> rfl

/-- A path to another file leads there. -/
theorem locate_other (h : Lacks place f w w') (hw : w.Sound)
    (hloc : w.locate p = .ok (there, .file g)) (hne : there ≠ place) :
    w'.locate p = .ok (there, .file g) := by
  obtain ⟨hshort, hwalk, hfind⟩ := locate_eq_ok_iff.mp hloc
  refine locate_eq_ok_iff.mpr ⟨hshort, ?_, ?_⟩
  · rw [h.walk hw hwalk, if_neg hne]
  · rw [← FileTree.lies_eq_file_iff, h.sameBut.lies _ hne, FileTree.lies_eq_file_iff]
    exact hfind

end Lacks

end Workspace

end LintHost
