/-
Which project is nearest to a unit.

The search starts in the directory of the unit and goes up to the root.  `nearestProject_exact` says
what it finds: the first project by name in the first directory on the way that offers one.  A
directory offers its projects as long as everything in it can be looked at.  Where something in it
has a name that makes its path too long, the whole directory is passed over,
`nearestProject_of_crowded`, as are places on the way that are no directories.

The projects below a directory are found by a walk as well, and the walk agrees with the search: of
the projects in the directory itself it meets the first by name first, since it goes by spellings
and all of them start with the directory.
-/
import LintHost.Proofs.Followable
import LintHost.Proofs.Target.Directory
import LintHost.Proofs.Target.Nearest

namespace LintHost

open Outcome

instance : Std.Asymm Path.Precedes := ⟨fun _ _ h h' => lt_asymm h h'⟩

/-- The first in a list in order that has a property, if none of the others with it precedes it. -/
theorem find?_of_pairwise {α : Type} {R : α → α → Prop} [Std.Asymm R] {l : List α}
    (hl : l.Pairwise R) {P : α → Bool} {x : α} (hx : x ∈ l) (hP : P x = true)
    (hfirst : ∀ y ∈ l, P y = true → y = x ∨ R x y) : l.find? P = some x := by
  obtain ⟨front, back, rfl⟩ := List.append_of_mem hx
  refine List.find?_eq_some_iff_append.mpr ⟨hP, front, back, rfl, fun y hy => ?_⟩
  rw [Bool.not_eq_true']
  by_contra hPy
  have hbefore : R y x := (List.pairwise_append.mp hl).2.2 y hy x (by simp)
  rcases hfirst y (by simp [hy]) (by simpa using hPy) with rfl | hafter
  · exact Std.Asymm.asymm _ _ hbefore hbefore
  · exact Std.Asymm.asymm _ _ hbefore hafter

namespace Target

open Workspace

variable {w : Workspace} {c : TargetsConfig} {dir start p : Path} {unit n : String}

/-! ### What a directory offers -/

/-- There is something in a directory under a name. -/
def Holds (w : Workspace) (dir : Path) (n : String) : Prop :=
  ∃ t, w.root.find? (dir.child n).names = some t

/-- There is a file in a directory, with the name of a project. -/
def HoldsProject (w : Workspace) (c : TargetsConfig) (dir : Path) (n : String) : Prop :=
  (∃ f, w.root.find? (dir.child n).names = some (.file f)) ∧ isProject c (dir.child n) = true

/-- Everything in a directory is short enough to be looked at. -/
def Searchable (w : Workspace) (dir : Path) : Prop := ∀ n, Holds w dir n → Fits (dir.child n)

/-- Has a project, and can be searched for it. -/
def Offers (w : Workspace) (c : TargetsConfig) (dir : Path) : Prop :=
  Searchable w dir ∧ ∃ n, HoldsProject w c dir n

/-- Is the first name of a project in a directory. -/
structure FirstIn (w : Workspace) (c : TargetsConfig) (dir : Path) (n : String) : Prop where
  project : HoldsProject w c dir n
  least : ∀ m, HoldsProject w c dir m → n ≤ m

theorem leastName_eq_none_iff {ns : List String} : leastName ns = none ↔ ns = [] := by
  cases ns with
  | nil => simp [leastName]
  | cons n rest =>
    rw [leastName]
    cases leastName rest <;> simp

theorem leastName_eq_some {ns : List String} (h : leastName ns = some n) :
    n ∈ ns ∧ ∀ m ∈ ns, n ≤ m := by
  induction ns generalizing n with
  | nil => cases h
  | cons first rest ih =>
    rw [leastName] at h
    cases hrest : leastName rest with
    | none =>
      rw [hrest] at h
      obtain rfl := Option.some.inj h
      rw [leastName_eq_none_iff.mp hrest]
      simp
    | some m =>
      rw [hrest] at h
      obtain ⟨hm, hleast⟩ := ih hrest
      obtain rfl := Option.some.inj h
      split_ifs with hlt
      · refine ⟨List.mem_cons_of_mem _ hm, List.forall_mem_cons.mpr ⟨le_of_lt hlt, hleast⟩⟩
      · have hle : first ≤ m := not_lt.mp hlt
        exact ⟨List.mem_cons_self,
          List.forall_mem_cons.mpr ⟨le_refl _, fun k hk => le_trans hle (hleast k hk)⟩⟩

theorem leastName_eq_some_iff {ns : List String} :
    leastName ns = some n ↔ n ∈ ns ∧ ∀ m ∈ ns, n ≤ m := by
  refine ⟨leastName_eq_some, fun ⟨hn, hleast⟩ => ?_⟩
  cases hsome : leastName ns with
  | none =>
    rw [leastName_eq_none_iff.mp hsome] at hn
    cases hn
  | some m =>
    obtain ⟨hm, hleast'⟩ := leastName_eq_some hsome
    rw [le_antisymm (hleast m hm) (hleast' n hn)]

/-- What holds something is a directory. -/
theorem Holds.isDir (h : Holds w dir n) : ∃ es, w.root.find? dir.names = some (.dir es) := by
  obtain ⟨t, ht⟩ := h
  obtain ⟨es, hes, -⟩ := FileTree.dir_of_find?_snoc ht
  exact ⟨es, hes⟩

theorem HoldsProject.holds (h : HoldsProject w c dir n) : Holds w dir n := by
  obtain ⟨⟨f, hf⟩, -⟩ := h
  exact ⟨.file f, hf⟩

theorem holds_iff {es : List (String × FileTree)} (hdir : w.root.find? dir.names = some (.dir es)) :
    Holds w dir n ↔ n ∈ es.map Prod.fst := by
  have hfind : w.root.find? (dir.child n).names = es.lookup n := by
    rw [Path.child, FileTree.find?_append, hdir]
    show (FileTree.dir es).find? [n] = _
    rw [FileTree.find?, FileTree.entries]
    cases es.lookup n <;> rfl
  rw [Holds, hfind, ← Option.isSome_iff_exists, List.mem_map]
  constructor
  · intro h
    obtain ⟨t, ht⟩ := Option.isSome_iff_exists.mp h
    obtain ⟨front, back, rfl, -⟩ := List.lookup_eq_some_iff.mp ht
    exact ⟨(n, t), by simp, rfl⟩
  · rintro ⟨e, he, rfl⟩
    rw [Option.isSome_iff_ne_none]
    intro hnone
    have hne := List.lookup_eq_none_iff.mp hnone e he
    simp at hne

theorem followable_child (hw : w.root.Proper) (h : Followable dir) (hholds : Holds w dir n)
    (hfits : Fits (dir.child n)) : Followable (dir.child n) := by
  obtain ⟨t, ht⟩ := hholds
  exact ⟨h.absolute, hw.of_find? ht, hfits⟩

/-- A look for a project at a name in a directory. -/
def lookFor (w : Workspace) (c : TargetsConfig) (dir : Path) (n : String) :
    Except Failure Bool := do
  .ok ((← w.isFile (dir.child n)) && isProject c (dir.child n))

theorem projectNames_eq (w : Workspace) (c : TargetsConfig) (dir : Path) :
    projectNames w c dir = w.namesIn dir >>= fun names => names.filterM (lookFor w c dir) := rfl

theorem lookFor_of_fits (hw : w.root.Proper) (h : Followable dir) (hholds : Holds w dir n)
    (hfits : Fits (dir.child n)) :
    ∃ b, lookFor w c dir n = .ok b ∧ (b = true ↔ HoldsProject w c dir n) := by
  have hlook := (followable_child hw h hholds hfits).test (w := w) FileTree.isFile
  refine ⟨_, by rw [lookFor, isFile, hlook]; rfl, ?_⟩
  rw [Bool.and_eq_true, HoldsProject]
  refine and_congr_left' ?_
  cases w.root.find? (dir.child n).names with
  | none => simp
  | some t => cases t <;> simp [FileTree.isFile]

/-- A directory that can be searched is searched through. -/
theorem projectIn_of_searchable (hw : w.root.Proper) (h : Followable dir)
    (hsearch : Searchable w dir) :
    ∃ ns, projectIn w c dir = .ok ((leastName ns).map dir.child) ∧
      ∀ n, n ∈ ns ↔ HoldsProject w c dir n := by
  by_cases hdir : ∃ es, w.root.find? dir.names = some (.dir es)
  · obtain ⟨es, hes⟩ := hdir
    have hlooks : ∀ n ∈ es.map Prod.fst, ∃ b, lookFor w c dir n = .ok b ∧
        (b = true ↔ HoldsProject w c dir n) := by
      intro n hn
      have hholds := (holds_iff hes).mpr hn
      exact lookFor_of_fits hw h hholds (hsearch n hholds)
    have hnames : projectNames w c dir =
        .ok ((es.map Prod.fst).filter fun n => isTrue (lookFor w c dir n)) := by
      rw [projectNames_eq, h.namesIn hes]
      exact filterM_eq_ok_iff.mpr ⟨fun n hn => (hlooks n hn).imp fun _ hb => hb.1, rfl⟩
    refine ⟨(es.map Prod.fst).filter fun n => isTrue (lookFor w c dir n), ?_, fun n => ?_⟩
    · rw [projectIn, hnames]
    · rw [List.mem_filter, isTrue_iff]
      constructor
      · rintro ⟨hn, htrue⟩
        obtain ⟨b, hb, hiff⟩ := hlooks n hn
        exact hiff.mp (Except.ok.inj (hb.symm.trans htrue))
      · intro hproject
        have hn := (holds_iff hes).mp hproject.holds
        obtain ⟨b, hb, hiff⟩ := hlooks n hn
        exact ⟨hn, hb.trans (congrArg Except.ok (hiff.mpr hproject))⟩
  · -- Below what is no directory there is nothing.
    obtain ⟨f, hf⟩ := h.namesIn_of_not_dir (not_exists.mp hdir)
    refine ⟨[], ?_, fun n => ⟨nofun, fun hproject => absurd hproject.holds.isDir hdir⟩⟩
    rw [projectIn, projectNames, hf]
    rfl

/-- A directory with something in it that is too long is passed over. -/
theorem projectIn_of_not_searchable (hw : w.root.Proper) (h : Followable dir)
    (hsearch : ¬Searchable w dir) : projectIn w c dir = .ok none := by
  obtain ⟨n, hn⟩ := not_forall.mp hsearch
  obtain ⟨hholds, hlong⟩ := Classical.not_imp.mp hn
  obtain ⟨es, hes⟩ := hholds.isDir
  have hn := (holds_iff hes).mp hholds
  obtain ⟨t, ht⟩ := hholds
  have hspell : Spellable (dir.child n).toString :=
    Path.spellable_toString.mpr fun m hm => (hw.of_find? ht m hm).spellable
  have hfails : w.isFile (dir.child n) = .error (.os ⟨.nameTooLong, (dir.child n).toString⟩) :=
    test_eq_error_iff.mpr ⟨hspell, if_pos (Nat.not_le.mp hlong), rfl⟩
  cases hnames : projectNames w c dir with
  | ok names =>
    rw [projectNames_eq, h.namesIn hes] at hnames
    obtain ⟨hall, -⟩ := filterM_eq_ok_iff.mp hnames
    obtain ⟨b, hb⟩ := hall n hn
    rw [lookFor, hfails] at hb
    cases hb
  | error e =>
    rcases projectNames_eq_error hnames with hfault | ⟨f, rfl⟩
    · rw [pathFault?_eq_none_iff.mpr h.spellable] at hfault
      cases hfault
    · rw [projectIn, hnames]

/-- **A directory gives the first of its projects by name, if it offers any.** -/
theorem projectIn_eq_some_iff (hw : w.root.Proper) (h : Followable dir) :
    projectIn w c dir = .ok (some p) ↔
      Searchable w dir ∧ ∃ n, FirstIn w c dir n ∧ p = dir.child n := by
  by_cases hsearch : Searchable w dir
  · obtain ⟨ns, hns, hmem⟩ := projectIn_of_searchable (c := c) hw h hsearch
    rw [hns, Except.ok.injEq, Option.map_eq_some_iff, and_iff_right hsearch]
    refine exists_congr fun n => and_congr ?_ eq_comm
    rw [leastName_eq_some_iff]
    simp only [hmem]
    exact ⟨fun ⟨hn, hleast⟩ => ⟨hn, hleast⟩, fun hfirst => ⟨hfirst.project, hfirst.least⟩⟩
  · rw [projectIn_of_not_searchable hw h hsearch]
    simp [hsearch]

theorem projectIn_eq_none_iff (hw : w.root.Proper) (h : Followable dir) :
    projectIn w c dir = .ok none ↔ ¬Offers w c dir := by
  by_cases hsearch : Searchable w dir
  · obtain ⟨ns, hns, hmem⟩ := projectIn_of_searchable (c := c) hw h hsearch
    rw [hns, Except.ok.injEq, Option.map_eq_none_iff, leastName_eq_none_iff, Offers,
      and_iff_right hsearch, List.eq_nil_iff_forall_not_mem, not_exists]
    simp only [hmem]
  · rw [projectIn_of_not_searchable hw h hsearch]
    simp [Offers, hsearch]

/-! ### The way up -/

theorem firstProject_eq_none_iff {dirs : List Path} :
    firstProject w c dirs = .ok none ↔ ∀ d ∈ dirs, projectIn w c d = .ok none := by
  induction dirs with
  | nil => simp [firstProject]
  | cons d rest ih =>
    rw [firstProject, bind_eq_ok_iff, List.forall_mem_cons]
    constructor
    · rintro ⟨answer, hanswer, hrest⟩
      cases answer with
      | some p => cases hrest
      | none => exact ⟨hanswer, ih.mp hrest⟩
    · rintro ⟨hd, hrest⟩
      exact ⟨none, hd, ih.mpr hrest⟩

theorem firstProject_eq_some_iff {dirs : List Path} :
    firstProject w c dirs = .ok (some p) ↔
      ∃ before dir after, dirs = before ++ dir :: after ∧
        (∀ d ∈ before, projectIn w c d = .ok none) ∧ projectIn w c dir = .ok (some p) := by
  induction dirs with
  | nil => simp [firstProject]
  | cons d rest ih =>
    rw [firstProject, bind_eq_ok_iff]
    constructor
    · rintro ⟨answer, hanswer, hrest⟩
      cases answer with
      | some q =>
        obtain rfl := Option.some.inj (Except.ok.inj hrest)
        exact ⟨[], d, rest, rfl, by simp, hanswer⟩
      | none =>
        obtain ⟨before, dir, after, rfl, hbefore, hdir⟩ := ih.mp hrest
        exact ⟨d :: before, dir, after, rfl, List.forall_mem_cons.mpr ⟨hanswer, hbefore⟩, hdir⟩
    · rintro ⟨before, dir, after, hsplit, hbefore, hdir⟩
      cases before with
      | nil =>
        obtain ⟨rfl, rfl⟩ := List.cons.inj hsplit
        exact ⟨some p, hdir, rfl⟩
      | cons b before =>
        obtain ⟨rfl, rfl⟩ := List.cons.inj hsplit
        obtain ⟨hb, hbefore⟩ := List.forall_mem_cons.mp hbefore
        exact ⟨none, hb, ih.mpr ⟨before, dir, after, rfl, hbefore, hdir⟩⟩

/-- **The first project is the first in the first directory that offers one.** -/
theorem firstProject_eq_some_iff_offers (hw : w.root.Proper) {dirs : List Path}
    (h : ∀ d ∈ dirs, Followable d) :
    firstProject w c dirs = .ok (some p) ↔
      ∃ before dir after n, dirs = before ++ dir :: after ∧ (∀ d ∈ before, ¬Offers w c d) ∧
        Searchable w dir ∧ FirstIn w c dir n ∧ p = dir.child n := by
  rw [firstProject_eq_some_iff]
  constructor
  · rintro ⟨before, dir, after, rfl, hbefore, hdir⟩
    obtain ⟨hsearch, n, hfirst, hp⟩ := (projectIn_eq_some_iff hw (h dir (by simp))).mp hdir
    refine ⟨before, dir, after, n, rfl, fun d hd => ?_, hsearch, hfirst, hp⟩
    exact (projectIn_eq_none_iff hw (h d (by simp [hd]))).mp (hbefore d hd)
  · rintro ⟨before, dir, after, n, rfl, hbefore, hsearch, hfirst, hp⟩
    refine ⟨before, dir, after, rfl, fun d hd => ?_, ?_⟩
    · exact (projectIn_eq_none_iff hw (h d (by simp [hd]))).mpr (hbefore d hd)
    · exact (projectIn_eq_some_iff hw (h dir (by simp))).mpr ⟨hsearch, n, hfirst, hp⟩

/-- A path if it is a directory of the tree, or else its parent. -/
def directoryAt (w : Workspace) (p : Path) : Path :=
  if (w.root.find? p.names).any FileTree.isDir then p else p.parent

/-- The directory where the search from a unit starts. -/
def searchStart (w : Workspace) (unit : String) : Path :=
  directoryAt w (w.normalize (Path.ofString unit))

theorem followable_normalize (hw : w.Sound)
    (hunit : ∀ n ∈ (Path.ofString unit).names, Spellable n ∧ FileTree.tooLong n = false)
    (hfits : Fits (w.normalize (Path.ofString unit))) :
    Followable (w.normalize (Path.ofString unit)) := by
  have hnormal := hw.normal (p := Path.ofString unit) fun n hn => Path.isName_of_mem_ofString hn
  refine ⟨hnormal.absolute, fun n hn => ?_, hfits⟩
  rcases Path.mem_normalize_names hn with hcwd | hmem
  · exact hw.cwd_names n hcwd
  · exact ⟨hnormal.names n hn, fun hup => hnormal.clean (hup ▸ hn), (hunit n hmem).2,
      (hunit n hmem).1⟩

theorem followable_parent (h : Followable p) : Followable p.parent := by
  by_cases hnames : p.names = []
  · have hsame : p.parent = p := by
      rw [Path.parent, hnames, List.dropLast_nil, ← hnames]
    rwa [hsame]
  · refine h.of_mem_ancestors ?_
    rw [Path.ancestors_of_below hnames]
    refine List.mem_cons_of_mem _ ?_
    by_cases hparent : p.parent.names = []
    · rw [Path.ancestors_of_root hparent]
      exact List.mem_singleton_self _
    · rw [Path.ancestors_of_below hparent]
      exact List.mem_cons_self

theorem followable_directoryAt (h : Followable p) : Followable (directoryAt w p) := by
  rw [directoryAt]
  split_ifs
  · exact h
  · exact followable_parent h

theorem nearestProject_eq_firstProject (hstart : Followable (w.normalize (Path.ofString unit))) :
    nearestProject w c unit =
      firstProject w c (searchStart w unit).ancestors := by
  rw [nearestProject_eq, isDir, hstart.test]
  rfl

/-- From what is no directory the search goes on as from its parent. -/
theorem nearestProject_parent (hw : w.Sound)
    (hstart : Followable (w.normalize (Path.ofString unit)))
    (hnot : ∀ es, w.root.find? (w.normalize (Path.ofString unit)).names ≠ some (.dir es)) :
    nearestProject w c (w.normalize (Path.ofString unit)).parent.toString =
      nearestProject w c unit := by
  rw [nearestProject_eq_firstProject hstart, searchStart]
  generalize w.normalize (Path.ofString unit) = start at hstart hnot
  have hparent := followable_parent hstart
  have hspelled : w.normalize (Path.ofString start.parent.toString) = start.parent := by
    rw [hparent.normal.ofString_toString]
    exact hparent.normal.normalize_eq _
  have hhere : directoryAt w start = start.parent := by
    rw [directoryAt, if_neg]
    cases hfind : w.root.find? start.names with
    | none => simp
    | some t =>
      cases t with
      | file f => simp [FileTree.isDir]
      | dir es => exact absurd hfind (hnot es)
  rw [nearestProject_eq_firstProject (hspelled.symm ▸ hparent), searchStart, hspelled, hhere]
  by_cases hdir : (w.root.find? start.parent.names).any FileTree.isDir = true
  · rw [directoryAt, if_pos hdir]
  · -- The parent offers nothing then, and it is not the root, which is a directory.
    have hnodir : ∀ es, w.root.find? start.parent.names ≠ some (.dir es) := by
      intro es hes
      rw [hes] at hdir
      exact hdir rfl
    have hbelow : start.parent.names ≠ [] := by
      intro hroot
      obtain ⟨es, hes⟩ := hw.start (Path.mk .slash [])
      refine hnodir es ?_
      rw [hroot]
      exact hes
    have hnone : projectIn w c start.parent = .ok none := by
      rw [projectIn_eq_none_iff hw.proper hparent]
      rintro ⟨-, n, hproject⟩
      obtain ⟨es, hes⟩ := hproject.holds.isDir
      exact hnodir es hes
    rw [directoryAt, if_neg hdir, Path.ancestors_of_below hbelow, firstProject, hnone]
    rfl

/-! ### The walk below the start -/

/-- The configuration under which the projects of another are the sources. -/
def projectsAsSources (c : TargetsConfig) : TargetsConfig :=
  { sourceExtensions := c.projectSuffixes }

theorem projectFiles_of_isDir {target : String} (h : w.isDir (Path.ofString target) = .ok true) :
    (projectFiles w c target).outcome = (resolve w (projectsAsSources c) target).outcome := by
  rw [projectFiles, resolve, Journal.bind_outcome, Journal.bind_outcome, Journal.of_outcome, h]
  show (Journal.of (w.scan (Path.ofString target) [] false) >>= fun files => pure _).outcome =
    directorySources w (projectsAsSources c) (Path.ofString target)
  rw [Journal.bind_outcome, Journal.of_outcome, directorySources]
  rfl

theorem respectGitignore_projectsAsSources :
    ¬(projectsAsSources c).respectGitignore = true := Bool.false_ne_true

/-- The walk for projects leaves nothing out. -/
theorem passesFilters_projectsAsSources (ignored : List String → Bool) (names : List String) :
    passesFilters w (projectsAsSources c) dir ignored names = true :=
  passesFilters_iff.mpr ⟨fun _ hmem => absurd hmem List.not_mem_nil,
    fun hrules => absurd hrules respectGitignore_projectsAsSources⟩

theorem answers_projectsAsSources : Answers w (projectsAsSources c) dir fun _ => false :=
  ⟨fun _ h => absurd h List.not_mem_nil, fun h => by cases h⟩

/-- What is in a directory itself has one name behind the directory. -/
theorem eq_singleton_of_parent {names : List String} (h : (dir.behind names).parent = dir)
    (hne : names ≠ []) : ∃ m, names = [m] := by
  rw [Path.parent, Path.behind, List.dropLast_append_of_ne_nil hne] at h
  have hone : names.dropLast = [] := List.append_right_eq_self.mp (congrArg Path.names h)
  have hsplit := List.dropLast_append_getLast hne
  rw [hone, List.nil_append] at hsplit
  exact ⟨names.getLast hne, hsplit.symm⟩

theorem precedes_child_iff {m : String} :
    (dir.child n).Precedes (dir.child m) ↔ n < m := by
  have hle : (dir.child m).toString ≤ (dir.child n).toString ↔ m ≤ n := by
    have hnames : m ≤ n ↔ Path.joinNames [m] ≤ Path.joinNames [n] := String.le_iff_toList_le
    rw [hnames]
    exact Path.toString_behind_le_iff dir (List.cons_ne_nil m []) (List.cons_ne_nil n [])
  rw [Path.Precedes, ← not_le, hle, not_le]

/-- **The walk below a directory meets the first project in it before the others in it.** -/
theorem find?_projectFiles (hw : w.Sound) (h : Followable dir) {es : List (String × FileTree)}
    (hdir : w.root.find? dir.names = some (.dir es)) (hfirst : FirstIn w c dir n) :
    ((∃ files, (projectFiles w c dir.toString).outcome = .ok files) ↔
      w.depthBelow dir ≤ w.interpreter.walkRoom ∧ ∀ q ∈ w.below dir, Fits q) ∧
    ∀ files, (projectFiles w c dir.toString).outcome = .ok files →
      files.find? (fun q => q.parent = dir) = some (dir.child n) := by
  have hspelled : Path.ofString dir.toString = dir := h.normal.ofString_toString
  have hnormal : w.normalize dir = dir := h.normal.normalize_eq _
  have hp : ∀ n ∈ dir.names, Path.IsName n := h.normal.names
  have hleads := h.leadsTo hdir
  have hanswers : Answers w (projectsAsSources c) (Path.ofString dir.toString) fun _ => false :=
    answers_projectsAsSources
  have hok : ∀ files, (projectFiles w c dir.toString).outcome = .ok files ↔
      (w.depthBelow dir ≤ w.interpreter.walkRoom ∧ ∀ q ∈ w.below dir, Fits q) ∧
        files = unitsBelow w (projectsAsSources c) dir (fun _ => false) (.dir es) := by
    intro files
    rw [projectFiles_of_isDir (hspelled.symm ▸ h.isDir_eq_true_iff.mpr ⟨es, hdir⟩),
      hanswers.resolve_eq_ok_iff hw (hspelled.symm ▸ hleads) rfl, hspelled]
    exact and_congr_left' ⟨fun hwalk => ⟨hwalk.room, hwalk.below⟩, fun ⟨hroom, hbelow⟩ =>
      ⟨hroom, hbelow, fun hrules => absurd hrules respectGitignore_projectsAsSources⟩⟩
  refine ⟨?_, fun files hfiles => ?_⟩
  · simp only [hok, exists_and_left, exists_eq, and_true]
  obtain ⟨-, rfl⟩ := (hok files).mp hfiles
  have hholds : ∀ {names : List String}, HoldsFile w dir names ↔
      ∃ f, w.root.find? (dir.names ++ names) = some (.file f) := by
    intro names
    rw [HoldsFile, hnormal]
  have hbehind : ∀ {names : List String}, HoldsFile w dir names →
      w.normalize (dir.behind names) = dir.behind names := by
    intro names hfile
    rw [(normalize_behind_of_holdsFile hw hfile).1, hnormal]
  refine find?_of_pairwise (precedes_unitsBelow hw hp hleads rfl) ?_ ?_ ?_
  · have hfile : HoldsFile w dir [n] := hholds.mpr hfirst.project.1
    exact (mem_unitsBelow hw hp hleads rfl).mpr
      ⟨[n], hfile, (hbehind hfile).symm, hfirst.project.2, passesFilters_projectsAsSources _ _⟩
  · exact decide_eq_true (Path.parent_child dir n)
  · intro q hq hparent
    obtain ⟨names, hfile, rfl, hsource, -⟩ := (mem_unitsBelow hw hp hleads rfl).mp hq
    rw [hbehind hfile] at hparent hsource ⊢
    have hne : names ≠ [] := by
      rintro rfl
      -- The directory itself is no file.
      obtain ⟨f, hf⟩ := hholds.mp hfile
      rw [List.append_nil, hdir] at hf
      cases hf
    obtain ⟨m, rfl⟩ := eq_singleton_of_parent (of_decide_eq_true hparent) hne
    rcases eq_or_lt_of_le (hfirst.least m ⟨hholds.mp hfile, hsource⟩) with rfl | hlt
    · exact Or.inl rfl
    · exact Or.inr (precedes_child_iff.mpr hlt)

/-- **The nearest project of a unit is the first by name in the first directory that offers one**,
in the unit's own directory or on the way from there to the root; and if no directory offers one,
there is none.  One in the directory where the search starts is the first in it that the walk below
meets, where that walk comes to its end.  From a unit that is no directory the search is that from
its parent. -/
theorem nearestProject_exact (hw : w.Sound)
    (hunit : ∀ n ∈ (Path.ofString unit).names, Spellable n ∧ FileTree.tooLong n = false)
    (hfits : Fits (w.normalize (Path.ofString unit))) :
    ∃ answer, nearestProject w c unit = .ok answer ∧
      (∀ p, answer = some p ↔ ∃ before dir after n,
        (searchStart w unit).ancestors = before ++ dir :: after ∧
        (∀ d ∈ before, ¬Offers w c d) ∧ Searchable w dir ∧ FirstIn w c dir n ∧
        p = dir.child n) ∧
      (answer = none ↔
        ∀ d ∈ (searchStart w unit).ancestors, ¬Offers w c d) ∧
      (∀ p dir, answer = some p → dir = searchStart w unit →
        p.parent = dir →
        ((∃ files, (projectFiles w c dir.toString).outcome = .ok files) ↔
          w.depthBelow dir ≤ w.interpreter.walkRoom ∧ ∀ q ∈ w.below dir, Fits q) ∧
        ∀ files, (projectFiles w c dir.toString).outcome = .ok files →
          files.find? (fun q => q.parent = dir) = some p) ∧
      ((∀ es, w.root.find? (w.normalize (Path.ofString unit)).names ≠ some (.dir es)) →
        nearestProject w c (w.normalize (Path.ofString unit)).parent.toString = .ok answer) := by
  have hfollow := followable_normalize hw hunit hfits
  have hstart : Followable (searchStart w unit) := followable_directoryAt hfollow
  have haround : ∀ d ∈ (searchStart w unit).ancestors,
      Followable d := fun d hd => hstart.of_mem_ancestors hd
  obtain ⟨answer, hanswer⟩ := firstProject_ok (w := w) (c := c) fun d hd => (haround d hd).spellable
  have hsame : ∀ found, answer = found ↔ firstProject w c
      (searchStart w unit).ancestors = .ok found := by
    intro found
    rw [hanswer, Except.ok.injEq]
  refine ⟨answer, (nearestProject_eq_firstProject hfollow).trans hanswer, fun p => ?_, ?_, ?_, ?_⟩
  · rw [hsame, firstProject_eq_some_iff_offers hw.proper haround]
  · rw [hsame, firstProject_eq_none_iff]
    exact forall₂_congr fun d hd => projectIn_eq_none_iff hw.proper (haround d hd)
  · rintro p dir hp rfl hparent
    obtain ⟨before, d, after, n, -, -, -, hfirst, rfl⟩ :=
      (firstProject_eq_some_iff_offers hw.proper haround).mp ((hsame _).mp hp)
    rw [Path.parent_child] at hparent
    rw [hparent] at hfirst ⊢
    obtain ⟨es, hes⟩ := hfirst.project.holds.isDir
    exact find?_projectFiles hw hstart hes hfirst
  · intro hnot
    rw [nearestProject_parent hw hfollow hnot, nearestProject_eq_firstProject hfollow, hanswer]

/-- A unit that is gone, in a directory with two projects and a directory that is named like one. -/
theorem nearestProject_exact_of_two :
    let w : Workspace := ⟨.dir [("work", .dir [("0.lkproj", .dir []), ("b.lkproj", .file ⟨[]⟩),
      ("a.LKPROJ", .file ⟨[]⟩)])], ["work"], [], .bare⟩
    let first : Path := ⟨.slash, ["work", "a.LKPROJ"]⟩
    nearestProject w {} "sub/../gone.py" = .ok (some first) ∧
      nearestProject w {} "/work" = .ok (some first) ∧
      ∃ files, (projectFiles w {} "/work").outcome = .ok files ∧
        files.find? (fun q => q.parent = ⟨.slash, ["work"]⟩) = some first := by
  intro w first
  have hnames :
      FileName "work" ∧ FileName "0.lkproj" ∧ FileName "b.lkproj" ∧ FileName "a.LKPROJ" := by
    decide +kernel
  obtain ⟨hwork, hdir, hb, ha⟩ := hnames
  have hsound : w.Sound :=
    ⟨⟨hwork, ⟨hdir, trivial, hb, trivial, ha, trivial, trivial⟩, trivial⟩, _, rfl⟩
  obtain ⟨answer, hanswer, -, -, hwalk, hparent⟩ := @nearestProject_exact w {} "sub/../gone.py"
    hsound (by decide +kernel) (by decide +kernel)
  have hfirst : nearestProject w {} "sub/../gone.py" = .ok (some first) := by decide +kernel
  obtain rfl : answer = some first := Except.ok.inj (hanswer.symm.trans hfirst)
  have hstart : (⟨.slash, ["work"]⟩ : Path) = searchStart w "sub/../gone.py" := by decide +kernel
  have hspelled : Path.toString ⟨.slash, ["work"]⟩ = "/work" := by decide +kernel
  have hup : (w.normalize (Path.ofString "sub/../gone.py")).parent.toString = "/work" := by
    decide +kernel
  have hgone : w.root.find? (w.normalize (Path.ofString "sub/../gone.py")).names = none := by
    have hnormal : w.normalize (Path.ofString "sub/../gone.py") = ⟨.slash, ["work", "gone.py"]⟩ := by
      decide +kernel
    rw [hnormal]
    rfl
  obtain ⟨hfits, hfind⟩ := hwalk first _ rfl hstart rfl
  rw [hspelled] at hfits hfind
  obtain ⟨files, hfiles⟩ := hfits.mpr (by decide +kernel)
  refine ⟨hfirst, ?_, files, hfiles, hfind files hfiles⟩
  rw [← hup]
  exact hparent fun es hes => by
    rw [hgone] at hes
    cases hes

/-- A directory with a unit, a project and a file with a long name. -/
def crowd : List (String × FileTree) :=
  [("t.py", .file ⟨[]⟩), ("a.lkproj", .file ⟨[]⟩), (wideName, .file ⟨[]⟩)]

def crowdedPlace : List String := List.replicate 16 wideName

/-- That directory so deep that the long name makes a path that is too long. -/
def crowded : Workspace := ⟨nested crowdedPlace (.dir crowd), crowdedPlace, [], .bare⟩

theorem find?_crowdedPlace : crowded.root.find? crowdedPlace = some (.dir crowd) :=
  find?_nested crowdedPlace _

theorem sound_crowded : crowded.Sound := by
  have hnames : ∀ n ∈ crowdedPlace, FileName n := by
    intro n hn
    rw [List.eq_of_mem_replicate hn]
    exact fileName_wideName
  have hunit : FileName "t.py" ∧ FileName "a.lkproj" := by decide
  have hcrowd : (FileTree.dir crowd).Proper :=
    ⟨hunit.1, trivial, hunit.2, trivial, fileName_wideName, trivial, trivial⟩
  exact ⟨proper_nested hnames hcrowd, crowd, find?_crowdedPlace⟩

theorem find?_nested_append (front back : List String) (t : FileTree) :
    (nested (front ++ back) t).find? front = some (nested back t) := by
  rw [nested, List.foldr_append]
  exact find?_nested front _

/-- In nested directories there is nothing but the next one, until the last. -/
theorem not_holdsProject_nested {front rest : List String} {es : List (String × FileTree)}
    {next m : String} {r : Root} (hroot : w.root = nested (front ++ next :: rest) (.dir es)) :
    ¬HoldsProject w c ⟨r, front⟩ m := by
  rintro ⟨⟨f, hf⟩, -⟩
  have hnext : w.root.find? front = some (.dir [(next, nested rest (.dir es))]) := by
    rw [hroot]
    exact find?_nested_append front (next :: rest) (.dir es)
  have hfile : (FileTree.dir [(next, nested rest (.dir es))]).find? [m] = some (.file f) := by
    rw [← hf, Path.child, FileTree.find?_append, hnext]
    rfl
  rw [FileTree.find?, FileTree.entries, List.lookup_cons] at hfile
  cases hsame : m == next with
  | false =>
    rw [hsame] at hfile
    cases hfile
  | true =>
    rw [hsame] at hfile
    cases rest <;> cases hfile

theorem normalize_crowded :
    crowded.normalize (Path.ofString "t.py") = ⟨.slash, crowdedPlace ++ ["t.py"]⟩ := by
  decide +kernel

theorem searchStart_crowded : searchStart crowded "t.py" = ⟨.slash, crowdedPlace⟩ := by
  decide +kernel

theorem fits_crowded : Fits ⟨.slash, crowdedPlace ++ ["t.py"]⟩ := by
  refine Nat.le_trans (Path.pathSize_toString_le (by decide)) ?_
  have hsize : Text.pathSize wideName = 250 := by decide +kernel
  rw [List.map_append, crowdedPlace, List.map_replicate, hsize]
  decide

theorem not_searchable_crowded : ¬Searchable crowded ⟨.slash, crowdedPlace⟩ := by
  intro hsearch
  have hlong : maxPathBytes <
      ((crowdedPlace ++ [wideName]).map fun n => n.toList.length).sum := by
    rw [crowdedPlace, List.map_append, List.map_replicate, List.map_singleton, toList_wideName,
      List.length_replicate]
    decide
  have hfits := hsearch wideName ((holds_iff find?_crowdedPlace).mpr (by simp [crowd]))
  have hbytes := sum_le_pathSize (p := Path.child ⟨.slash, crowdedPlace⟩ wideName)
    (by simp [Path.child])
  exact absurd (Nat.le_trans hbytes hfits) (Nat.not_le.mpr hlong)

theorem not_offers_crowded {d : Path} (hd : d ∈ (searchStart crowded "t.py").ancestors) :
    ¬Offers crowded {} d := by
  rintro ⟨hsearch, m, hproject⟩
  rw [searchStart_crowded] at hd
  obtain ⟨k, -, rfl⟩ := List.mem_map.mp hd
  have hsplit := List.take_append_drop (crowdedPlace.length - k) crowdedPlace
  cases hrest : crowdedPlace.drop (crowdedPlace.length - k) with
  | nil =>
    rw [hrest, List.append_nil] at hsplit
    rw [hsplit] at hsearch
    exact not_searchable_crowded hsearch
  | cons next rest =>
    rw [hrest] at hsplit
    have hroot : crowded.root = nested
        (crowdedPlace.take (crowdedPlace.length - k) ++ next :: rest) (.dir crowd) := by
      rw [hsplit]
      rfl
    exact not_holdsProject_nested hroot hproject

/-- A unit with a project beside it that has no nearest project. -/
theorem nearestProject_of_crowded :
    crowded.Sound ∧
      (∀ n ∈ (Path.ofString "t.py").names, Spellable n ∧ FileTree.tooLong n = false) ∧
      Fits (crowded.normalize (Path.ofString "t.py")) ∧
      HoldsProject crowded {} (searchStart crowded "t.py") "a.lkproj" ∧
      nearestProject crowded {} "t.py" = .ok none := by
  have hunit : ∀ n ∈ (Path.ofString "t.py").names, Spellable n ∧ FileTree.tooLong n = false := by
    decide +kernel
  have hfits : Fits (crowded.normalize (Path.ofString "t.py")) := by
    rw [normalize_crowded]
    exact fits_crowded
  have hfollow := followable_normalize sound_crowded hunit hfits
  have hstart : Followable (searchStart crowded "t.py") := followable_directoryAt hfollow
  refine ⟨sound_crowded, hunit, hfits, ⟨⟨⟨[]⟩, ?_⟩, by decide +kernel⟩, ?_⟩
  · rw [searchStart_crowded, Path.child, FileTree.find?_append, find?_crowdedPlace]
    rfl
  · rw [nearestProject_eq_firstProject hfollow, firstProject_eq_none_iff]
    intro d hd
    exact (projectIn_eq_none_iff sound_crowded.proper (hstart.of_mem_ancestors hd)).mpr
      (not_offers_crowded hd)

end Target

end LintHost
