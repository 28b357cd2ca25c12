/-
The units of a resolution.

Whatever a target is, a resolution of it gives source files that are there, each under its one
absolute spelling and none twice, `areUnits_of_resolve`.  The four ways to a unit look at a path
before it is normal or after that, and `Sound.locate` is why it does not matter.

A unit that is neither a project nor a solution by its name resolves to itself, from wherever it is
asked for, `resolve_of_isUnit`.  Its spelling has to be short enough to be followed for that, and
not every unit has such a spelling: where the working directory lies deep, a unit is found under a
shorter one, `resolve_of_buried`.
-/
import LintHost.Proofs.Target.Resolution

namespace LintHost.Target

open Outcome

/-- Is a source file under its one absolute spelling. -/
structure IsUnit (w : Workspace) (c : TargetsConfig) (u : Path) : Prop where
  normal : u.Normal
  file : ∃ f, w.root.find? u.names = some (.file f)
  source : isSource c u = true

/-- Are units, none of them twice. -/
structure AreUnits (w : Workspace) (c : TargetsConfig) (units : List Path) : Prop where
  nodup : units.Nodup
  isUnit : ∀ u ∈ units, IsUnit w c u

variable {w : Workspace} {c : TargetsConfig} {target : String} {p u : Path} {units : List Path}

theorem hasSuffix_iff {suffixes : List String} :
    hasSuffix p suffixes = true ↔
      ∃ s ∈ suffixes, Text.endsWith (Text.lower p.name.toList) (Text.lower s.toList) = true := by
  rw [hasSuffix, List.any_eq_true]

/-- What a path is by its name is told by its last name. -/
theorem hasSuffix_congr {q : Path} (h : p.name = q.name) (suffixes : List String) :
    hasSuffix p suffixes = hasSuffix q suffixes := by
  unfold hasSuffix
  rw [h]

/-- **A source file that is there is a unit under its normal form.** -/
theorem isUnit_normalize (hw : w.Sound) (hp : ∀ n ∈ p.names, Path.IsName n)
    (hfile : w.isFile p = .ok true) (hsource : isSource c p = true) :
    IsUnit w c (w.normalize p) := by
  obtain ⟨-, there, f, hloc⟩ := Workspace.isFile_eq_true_iff.mp hfile
  have hname : (w.normalize p).name = p.name := hw.normalize_name hp hloc
  exact {
    normal := hw.normal hp
    file := ⟨f, hw.locate hp hloc⟩
    source := (hasSuffix_congr hname _).trans hsource }

/-! ### The ways to a unit -/

theorem normal_of_mem_listing (hw : w.Sound) (hp : ∀ n ∈ p.names, Path.IsName n) {key : String}
    {q : Path} (hq : q ∈ listing w p key) : q.Normal := by
  unfold listing at hq
  cases hread : readYaml w p with
  | error e =>
    rw [hread] at hq
    cases hq
  | ok data =>
    rw [hread] at hq
    obtain ⟨s, -, rfl⟩ := List.mem_map.mp hq
    refine hw.normal fun n hn => ?_
    rcases Path.mem_join_names hn with hn | hn
    · exact hp n (List.dropLast_subset _ hn)
    · exact Path.isName_of_mem_ofString hn

theorem isUnit_of_mem_project (hw : w.Sound) (hp : ∀ n ∈ p.names, Path.IsName n)
    (hu : u ∈ (listing w p "sources").filter (keepsSource w c)) : IsUnit w c u := by
  obtain ⟨hlisted, hkeeps⟩ := List.mem_filter.mp hu
  obtain ⟨hthere, hsource⟩ := (Bool.and_eq_true _ _).mp hkeeps
  have hnormal := normal_of_mem_listing hw hp hlisted
  rw [← hnormal.normalize_eq w.cwdPath]
  exact isUnit_normalize hw hnormal.names (isTrue_iff.mp hthere) hsource

theorem isUnit_of_mem_solution (hw : w.Sound) (hp : ∀ n ∈ p.names, Path.IsName n)
    (hu : u ∈ (projectsIn w c p).flatMap (sourcesIn w c)) : IsUnit w c u := by
  obtain ⟨q, hq, hu⟩ := List.mem_flatMap.mp hu
  obtain ⟨hlisted, -⟩ := List.mem_filter.mp ((mem_dedupe _ _).mp hq)
  have hnormal := normal_of_mem_listing hw hp hlisted
  exact isUnit_of_mem_project hw hnormal.names ((mem_dedupe _ _).mp hu)

theorem isUnit_of_mem_directory (hw : w.Sound) (hp : ∀ n ∈ p.names, Path.IsName n)
    {patterns : List String} {respect : Bool} {files : List Path}
    (h : w.scan p patterns respect = .ok files)
    (hu : u ∈ (files.filter (isSource c)).map w.normalize) : IsUnit w c u := by
  obtain ⟨q, hq, rfl⟩ := List.mem_map.mp hu
  obtain ⟨hfound, hsource⟩ := List.mem_filter.mp hq
  have hbelow := Workspace.mem_below_of_mem_scan h hfound
  exact isUnit_normalize hw (Workspace.names_of_mem_below hw.proper hp hbelow)
    (Workspace.isFile_of_mem_scan h hfound) hsource

/-! ### All that a resolution gives -/

theorem AreUnits.nil : AreUnits w c [] := ⟨List.nodup_nil, fun _ hu => absurd hu List.not_mem_nil⟩

theorem AreUnits.dedupe (h : ∀ u ∈ units, IsUnit w c u) : AreUnits w c (dedupe units) :=
  ⟨nodup_dedupe units, fun u hu => h u ((mem_dedupe units u).mp hu)⟩

/-- **A resolution gives units.** -/
theorem areUnits_of_resolve (hw : w.Sound) (h : (resolve w c target).outcome = .ok units) :
    AreUnits w c units := by
  have hp : ∀ n ∈ (Path.ofString target).names, Path.IsName n :=
    fun n hn => Path.isName_of_mem_ofString hn
  obtain ⟨-, hunits⟩ := resolve_eq_ok_iff.mp h
  cases hkind : kindAt w c (Path.ofString target) with
  | directory =>
    rw [hkind, unitsFor] at hunits
    obtain ⟨files, hscan, rfl⟩ := directorySources_eq_ok_iff.mp hunits
    exact AreUnits.dedupe fun u hu => isUnit_of_mem_directory hw hp hscan hu
  | nothing =>
    rw [hkind] at hunits
    rw [← Except.ok.inj hunits]
    exact AreUnits.nil
  | solution =>
    rw [hkind, unitsFor] at hunits
    obtain ⟨-, hgiven⟩ := solutionSources_eq_ok_iff.mp hunits
    rw [hgiven]
    exact AreUnits.dedupe fun u hu => isUnit_of_mem_solution hw hp hu
  | project =>
    rw [hkind, unitsFor] at hunits
    obtain ⟨-, hgiven⟩ := projectSources_eq_ok_iff.mp hunits
    rw [hgiven]
    exact AreUnits.dedupe fun u hu => isUnit_of_mem_project hw hp hu
  | source =>
    rw [hkind] at hunits
    rw [← Except.ok.inj hunits]
    obtain ⟨hfile, hname⟩ := isFile_of_kindAt hkind Kind.noConfusion Kind.noConfusion
    have hsource : isSource c (Path.ofString target) = true := isSource_of_fileKind hname
    refine ⟨List.nodup_singleton _, fun u hu => ?_⟩
    rw [List.mem_singleton.mp hu]
    exact isUnit_normalize hw hp hfile hsource
  | other =>
    rw [hkind] at hunits
    rw [← Except.ok.inj hunits]
    exact AreUnits.nil

/-! ### Units as targets -/

namespace IsUnit

theorem fileNames (hu : IsUnit w c u) (hw : w.root.Proper) : ∀ n ∈ u.names, FileName n := by
  obtain ⟨f, hfind⟩ := hu.file
  exact hw.of_find? hfind

theorem spellable (hu : IsUnit w c u) (hw : w.root.Proper) : Spellable u.toString :=
  Path.spellable_toString.mpr fun n hn => (hu.fileNames hw n hn).spellable

/-- A unit is found by its spelling, if that can be followed. -/
theorem test (hu : IsUnit w c u) (hw : w.root.Proper)
    (hfits : Text.pathSize u.toString ≤ Workspace.maxPathBytes) (cwd : List String)
    (holds : FileTree → Bool) :
    ∃ f, ({ w with cwd := cwd } : Workspace).test u holds = .ok (holds (.file f)) := by
  obtain ⟨f, hfind⟩ := hu.file
  have hloc : ({ w with cwd := cwd } : Workspace).locate u = .ok (u.names, .file f) :=
    Workspace.locate_of_find? hu.normal (hu.fileNames hw) hfind hfits
  exact ⟨f, Workspace.test_of_locate (hu.spellable hw) hloc holds⟩

end IsUnit

/-- **A unit resolves to itself, from every working directory.** -/
theorem resolve_of_isUnit (hw : w.root.Proper) (hu : IsUnit w c u)
    (hfits : Text.pathSize u.toString ≤ Workspace.maxPathBytes) (hsolution : isSolution c u = false)
    (hproject : isProject c u = false) (cwd : List String) :
    resolve { w with cwd := cwd } c u.toString = pure [u] := by
  have hspelled : Path.ofString u.toString = u := hu.normal.ofString_toString
  obtain ⟨f, hfile⟩ := hu.test hw hfits cwd FileTree.isFile
  obtain ⟨g, hdir⟩ := hu.test hw hfits cwd FileTree.isDir
  have hkind : kindAt { w with cwd := cwd } c u = .source := by
    unfold kindAt
    rw [Workspace.isThere_of_isFile hfile, Workspace.isDir, hdir]
    simp [Outcome.isTrue, FileTree.isDir, FileTree.isFile, fileKind, hsolution, hproject, hu.source]
  have hlook : ({ w with cwd := cwd } : Workspace).Lookable (Path.ofString u.toString) := by
    rw [hspelled]
    exact ⟨_, hfile⟩
  rw [resolve_of_lookable hlook, hspelled, hkind, unitsFor, hspelled]
  rw [Workspace.normalize, hu.normal.normalize_eq]

/-- A unit that is too long to be followed does not resolve. -/
theorem resolve_of_long (hw : w.root.Proper) (hu : IsUnit w c u)
    (hlong : Workspace.maxPathBytes < Text.pathSize u.toString) :
    resolve w c u.toString = Journal.fail (.os ⟨.nameTooLong, u.toString⟩) := by
  have hspelled : Path.ofString u.toString = u := hu.normal.ofString_toString
  have hlost : ¬ w.Lookable (Path.ofString u.toString) := by
    rw [hspelled, Workspace.lookable_iff, not_not]
    exact ⟨hu.spellable hw, if_pos hlong⟩
  rw [resolve_of_not_lookable hlost, hspelled]

/-- **The units of a resolution.**  They are spelled differently; and each of them is spelled from
the root, is its own normal form, is a file that is there with the name of a source, and is all that
it resolves to from any working directory, unless it is a project or a solution by its name or is
too long to be followed. -/
theorem units_wellFormed (hw : w.Sound) (h : (resolve w c target).outcome = .ok units) :
    (units.map Path.toString).Nodup ∧ ∀ u ∈ units,
      (∃ rest, u.toString.toList = '/' :: rest) ∧
      (∀ v : Workspace, (v.normalize (Path.ofString u.toString)).toString = u.toString) ∧
      (∃ f, w.root.find? (Path.ofString u.toString).names = some (.file f)) ∧
      (∃ s ∈ c.sourceExtensions,
        Text.endsWith (Text.lower u.name.toList) (Text.lower s.toList) = true) ∧
      (Text.pathSize u.toString ≤ Workspace.maxPathBytes →
        w.isFile (Path.ofString u.toString) = .ok true ∧
        (isSolution c u = false → isProject c u = false →
          ∀ cwd, resolve { w with cwd := cwd } c u.toString = pure [u])) := by
  have hall := areUnits_of_resolve hw h
  refine ⟨Path.nodup_map_toString (fun u hu => (hall.isUnit u hu).normal) hall.nodup, ?_⟩
  intro u hu
  have hunit := hall.isUnit u hu
  have hspelled : Path.ofString u.toString = u := hunit.normal.ofString_toString
  rw [hspelled]
  refine ⟨hunit.normal.toString_eq_cons, ?_, hunit.file, hasSuffix_iff.mp hunit.source, ?_⟩
  · intro v
    rw [Workspace.normalize, hunit.normal.normalize_eq]
  · intro hfits
    obtain ⟨f, hfile⟩ := hunit.test hw.proper hfits w.cwd FileTree.isFile
    exact ⟨hfile, fun hsolution hproject cwd =>
      resolve_of_isUnit hw.proper hunit hfits hsolution hproject cwd⟩

/-- A source file in a directory that is asked for in a roundabout way. -/
theorem units_wellFormed_of_directory :
    let w : Workspace := ⟨.dir [("d", .dir [("m.py", .file ⟨[]⟩)])], ["d"], [], .bare⟩
    (resolve w {} "../d/.").outcome = .ok [⟨.slash, ["d", "m.py"]⟩] ∧
      ∀ cwd, resolve { w with cwd := cwd } {} "/d/m.py" = pure [⟨.slash, ["d", "m.py"]⟩] := by
  intro w
  have hproper : w.root.Proper := by
    refine ⟨?_, ⟨?_, trivial, trivial⟩, trivial⟩
    · decide +kernel
    · decide +kernel
  have hsound : w.Sound := ⟨hproper, _, rfl⟩
  have hunits : (resolve w {} "../d/.").outcome = .ok [⟨.slash, ["d", "m.py"]⟩] := by
    decide +kernel
  obtain ⟨-, -, -, -, hself⟩ := (units_wellFormed hsound hunits).2 _ (List.mem_singleton_self _)
  exact ⟨hunits, (hself (by decide +kernel)).2 (by decide +kernel) (by decide +kernel)⟩

/-! ### A unit that cannot be followed -/

/-- Directories in each other by their names, and something in the last of them. -/
def nested (names : List String) (t : FileTree) : FileTree :=
  names.foldr (fun n below => .dir [(n, below)]) t

theorem find?_nested (names : List String) (t : FileTree) :
    (nested names t).find? names = some t := by
  induction names with
  | nil => rfl
  | cons n rest ih =>
    show (FileTree.dir [(n, nested rest t)]).find? (n :: rest) = some t
    rw [FileTree.find?, FileTree.entries, List.lookup_cons_self]
    exact ih

theorem proper_nested {names : List String} {t : FileTree} (h : ∀ n ∈ names, FileName n)
    (ht : t.Proper) : (nested names t).Proper := by
  induction names with
  | nil => exact ht
  | cons n rest ih =>
    exact ⟨h n (by simp), ih fun m hm => h m (by simp [hm]), trivial⟩

/-- A name of 250 characters. -/
@[irreducible] def wideName : String := String.ofList (List.replicate 250 'w')

theorem toList_wideName : wideName.toList = List.replicate 250 'w' := by
  unfold wideName
  rw [String.toList_ofList]

theorem fileName_wideName : FileName wideName := by
  have hchar : ∀ ch ∈ wideName.toList, ch = 'w' := by
    rw [toList_wideName]
    exact fun ch hch => List.eq_of_mem_replicate hch
  refine ⟨⟨?_, ?_⟩, ?_, ?_, ?_⟩
  · intro hslash
    exact absurd (hchar _ hslash) (by decide)
  · rw [toList_wideName]
    rfl
  · intro hup
    have hpoint : '.' ∈ wideName.toList := by
      rw [hup]
      decide
    exact absurd (hchar _ hpoint) (by decide)
  · rw [FileTree.tooLong, Text.pathSize, toList_wideName]
    decide +kernel
  · intro ch hch
    rw [hchar ch hch]
    decide

/-- A source so deep that it can be followed from its own directory only, which is the working
directory. -/
def buried : Workspace :=
  ⟨nested (List.replicate 17 wideName) (.dir [("m.py", .file ⟨[]⟩)]),
    List.replicate 17 wideName, [], .bare⟩

/-- The unit of the source. -/
def buriedUnit : Path := ⟨.slash, List.replicate 17 wideName ++ ["m.py"]⟩

theorem sound_buried : buried.Sound := by
  have hnames : ∀ n ∈ List.replicate 17 wideName, FileName n := by
    intro n hn
    rw [List.eq_of_mem_replicate hn]
    exact fileName_wideName
  have hsource : FileName "m.py" := by decide
  have hcwd : buried.root.find? buried.cwd = some _ := find?_nested (List.replicate 17 wideName) _
  exact ⟨proper_nested hnames ⟨hsource, trivial, trivial⟩, _, hcwd⟩

theorem units_of_buried : (resolve buried {} "m.py").outcome = .ok [buriedUnit] := by
  decide +kernel

theorem isUnit_buriedUnit : IsUnit buried {} buriedUnit :=
  (areUnits_of_resolve sound_buried units_of_buried).isUnit _ (List.mem_singleton_self _)

theorem long_buriedUnit : Workspace.maxPathBytes < Text.pathSize buriedUnit.toString := by
  refine Nat.lt_of_lt_of_le ?_ (Workspace.sum_le_pathSize (by decide))
  rw [buriedUnit, List.map_append, List.map_replicate, toList_wideName, List.length_replicate]
  decide

/-- A source resolves to a unit that does not resolve. -/
theorem resolve_of_buried :
    buried.Sound ∧ (resolve buried {} "m.py").outcome = .ok [buriedUnit] ∧
      isSolution {} buriedUnit = false ∧ isProject {} buriedUnit = false ∧
      (resolve buried {} buriedUnit.toString).outcome =
        .error (.os ⟨.nameTooLong, buriedUnit.toString⟩) := by
  refine ⟨sound_buried, units_of_buried, by decide +kernel, by decide +kernel, ?_⟩
  rw [resolve_of_long sound_buried.proper isUnit_buriedUnit long_buriedUnit]
  rfl

end LintHost.Target
