/-
What becomes of the entries of a descriptor.

An entry of a list is a text or it is not one, and only the texts count.  Every text is spelled as a
path from the directory of the descriptor, and then it is kept or there is one warning about it:
`Accounted` says so of a list of entries and of what was made of it, and `Accounted.length_eq` that
none disappears.  Projects and solutions do this alike and differ in the order of two tests.  A
project looks at a path first and a solution at its name, so that a solution does not look at what
is no project by its name.

A path that is looked at has to be short enough for that, and it is the path as it is handed on, in
its normal form, that counts.  An entry of a few letters is too long where the descriptor lies deep,
`unresolved_of_buried`.
-/
import LintHost.Proofs.Target.Malformed
import LintHost.Proofs.Target.Spelling

namespace LintHost.Target

open Outcome Workspace

/-- The paths that the items of a list stand for, seen from the directory of a descriptor. -/
def entriesOf (w : Workspace) (p : Path) (items : List Value) : List Path :=
  (items.filterMap text?).map fun s => w.normalize (p.parent.join (Path.ofString s))

/-- Is a file that holds a list under a key of a mapping. -/
structure Declares (w : Workspace) (p : Path) (key : String) (items : List Value) : Prop where
  file : w.isFile p = .ok true
  reads : ∃ data entries, readYaml w p = .ok data ∧ data.view = .map entries ∧
    (Value.lookupName key entries).map Value.view = some (.list items)

/-- The warning about a source that a project leaves out. -/
def sourceWarning (w : Workspace) (project q : Path) : Event :=
  if w.isThere q then .projectSourceIgnored project.toString q.toString
  else .projectSourceMissing project.toString q.toString

/-- The warning about an entry that a solution leaves out. -/
def projectWarning (c : TargetsConfig) (solution q : Path) : Event :=
  if isProject c q then .solutionProjectMissing solution.toString q.toString
  else .solutionEntryNotAProject solution.toString q.toString

/-- What was made of some entries: those that are kept are given, each at its first place, and there
is one warning about every other one, in order. -/
structure Accounted (entries : List Path) (keep : Path → Bool) (warning : Path → Event)
    (made : Journal (List Path)) : Prop where
  kept : made.outcome = .ok (dedupe (entries.filter keep))
  warned : made.events = (entries.filter fun q => !keep q).map warning
  level : ∀ e ∈ made.events, e.level = .warning

/-- **No entry disappears**: those that are kept and the warnings are as many as the entries. -/
theorem Accounted.length_eq {entries : List Path} {keep : Path → Bool} {warning : Path → Event}
    {made : Journal (List Path)} (h : Accounted entries keep warning made) :
    (entries.filter keep).length + made.events.length = entries.length := by
  rw [h.warned, List.length_map]
  exact (List.length_eq_length_filter_add keep).symm

variable {w : Workspace} {c : TargetsConfig} {target key : String} {p q : Path}
  {items : List Value}

/-! ### Declared lists -/

theorem listedTexts_of_list {data : Value} {entries : List (Value × Value)}
    (hmap : data.view = .map entries)
    (hlist : (Value.lookupName key entries).map Value.view = some (.list items)) :
    listedTexts key data = some (items.filterMap text?) := by
  rw [listedTexts, hmap]
  dsimp only
  rw [hlist]
  rfl

/-- A file that lists texts declares a list of them. -/
theorem exists_declares (hfile : w.isFile p = .ok true) (texts : List String)
    (h : (readYaml w p).toOption.bind (listedTexts key) = some texts) :
    ∃ items, Declares w p key items ∧ items.filterMap text? = texts := by
  cases hread : readYaml w p with
  | error e =>
    rw [hread] at h
    cases h
  | ok data =>
    rw [hread] at h
    change listedTexts key data = some texts at h
    unfold listedTexts at h
    split at h
    · rename_i entries hmap
      split at h
      · rename_i items hlist
        exact ⟨items, ⟨hfile, data, entries, hread, hmap, hlist⟩, Option.some.inj h⟩
      · cases h
    · cases h

namespace Declares

theorem listing_eq (h : Declares w p key items) : listing w p key = entriesOf w p items := by
  obtain ⟨data, entries, hread, hmap, hlist⟩ := h.reads
  rw [listing, hread]
  dsimp only
  rw [listedTexts_of_list hmap hlist]
  rfl

theorem warning?_eq_none (h : Declares w p key items) : warning? w p key = none := by
  obtain ⟨data, entries, hread, hmap, hlist⟩ := h.reads
  rw [warning?, hread]
  dsimp only
  rw [listedTexts_of_list hmap hlist]
  rfl

/-- A declared list is gone through where every path in it that is looked at is short enough. -/
theorem passes_iff_fits (h : Declares w p key items) {looked : List Path}
    (hshort : ∀ q ∈ looked, ∀ n ∈ q.names, FileTree.tooLong n = false) :
    Passes w p looked ↔ ∀ q ∈ looked, Spellable q.toString → Fits q := by
  rw [passes_iff]
  refine ⟨fun hall q hq => (lookable_of_short (hshort q hq)).mp (hall.2 q hq), fun hall => ⟨?_, ?_⟩⟩
  · exact tolerable_of_warning? h.warning?_eq_none
  · exact fun q hq => (lookable_of_short (hshort q hq)).mpr (hall q hq)

end Declares

/-! ### Entries that are left out -/

theorem skippedSource?_eq (w : Workspace) (c : TargetsConfig) (p q : Path) :
    skippedSource? w c p q = if !keepsSource w c q then some (sourceWarning w p q) else none := by
  unfold skippedSource? keepsSource sourceWarning
  cases w.isThere q <;> cases isSource c q <;> rfl

theorem skippedProject?_eq (w : Workspace) (c : TargetsConfig) (p q : Path) :
    skippedProject? w c p q =
      if !keepsProject w c q then some (projectWarning c p q) else none := by
  unfold skippedProject? keepsProject projectWarning
  cases isProject c q <;> cases w.isThere q <;> rfl

/-- The notes about what is left out, as one note about each. -/
theorem filterMap_skipped {skipped : Path → Option Event} {keep : Path → Bool}
    {warning : Path → Event}
    (h : ∀ q, skipped q = if !keep q then some (warning q) else none) (entries : List Path) :
    entries.filterMap skipped = (entries.filter fun q => !keep q).map warning := by
  rw [← List.filterMap_eq_map, List.filterMap_filter]
  exact List.filterMap_congr fun q _ => h q

theorem level_sourceWarning (w : Workspace) (p q : Path) :
    (sourceWarning w p q).level = .warning := by
  unfold sourceWarning
  split_ifs <;> rfl

theorem level_projectWarning (c : TargetsConfig) (p q : Path) :
    (projectWarning c p q).level = .warning := by
  unfold projectWarning
  split_ifs <;> rfl

/-! ### Both kinds of descriptors -/

theorem Declares.projectSources_eq_ok_iff (h : Declares w p "sources" items) {us : List Path} :
    (projectSources w c p).outcome = .ok us ↔
      Passes w p (entriesOf w p items) ∧ us = sourcesIn w c p := by
  rw [← h.listing_eq]
  exact Target.projectSources_eq_ok_iff

theorem Declares.solutionProjects_eq_ok_iff (h : Declares w p "projects" items)
    {ps : List Path} :
    (solutionProjects w c p).outcome = .ok ps ↔
      Passes w p ((entriesOf w p items).filter (isProject c)) ∧ ps = projectsIn w c p := by
  rw [← h.listing_eq]
  exact Target.solutionProjects_eq_ok_iff

theorem Declares.accounted_projectSources (h : Declares w p "sources" items)
    (hpasses : Passes w p (entriesOf w p items)) :
    Accounted (entriesOf w p items) (keepsSource w c) (sourceWarning w p)
      (projectSources w c p) := by
  have hevents : (projectSources w c p).events =
      ((entriesOf w p items).filter fun q => !keepsSource w c q).map (sourceWarning w p) := by
    rw [← h.listing_eq] at hpasses ⊢
    rw [projectSources_events hpasses, projectNotes, h.warning?_eq_none,
      filterMap_skipped (skippedSource?_eq w c p)]
    rfl
  refine ⟨?_, hevents, ?_⟩
  · rw [h.projectSources_eq_ok_iff.mpr ⟨hpasses, rfl⟩, sourcesIn, h.listing_eq]
  · rw [hevents, List.forall_mem_map]
    exact fun q _ => level_sourceWarning w p q

theorem Declares.accounted_solutionProjects (h : Declares w p "projects" items)
    (hpasses : Passes w p ((entriesOf w p items).filter (isProject c))) :
    Accounted (entriesOf w p items) (keepsProject w c) (projectWarning c p)
      (solutionProjects w c p) := by
  have hevents : (solutionProjects w c p).events =
      ((entriesOf w p items).filter fun q => !keepsProject w c q).map (projectWarning c p) := by
    rw [← h.listing_eq] at hpasses ⊢
    rw [solutionProjects_events hpasses, solutionNotes, h.warning?_eq_none,
      filterMap_skipped (skippedProject?_eq w c p)]
    rfl
  refine ⟨?_, hevents, ?_⟩
  · rw [h.solutionProjects_eq_ok_iff.mpr ⟨hpasses, rfl⟩, projectsIn, h.listing_eq]
  · rw [hevents, List.forall_mem_map]
    exact fun q _ => level_projectWarning c p q

/-- The law of declared lists.  Something is given exactly where the paths that are looked at are
short enough, if they can be spelled at all; and then every entry is accounted for. -/
structure Settles (entries looked : List Path) (keep : Path → Bool) (warning : Path → Event)
    (made : Journal (List Path)) : Prop where
  returns_iff : (∃ given, made.outcome = .ok given) ↔
    ∀ q ∈ looked, Spellable q.toString → Fits q
  accounted : ∀ given, made.outcome = .ok given → Accounted entries keep warning made ∧
    (entries.filter keep).length + made.events.length = entries.length

theorem Declares.settles (h : Declares w p key items) {looked kept : List Path}
    {keep : Path → Bool} {warning : Path → Event} {made : Journal (List Path)}
    (hshort : ∀ q ∈ looked, ∀ n ∈ q.names, FileTree.tooLong n = false)
    (hok : ∀ given, made.outcome = .ok given ↔ Passes w p looked ∧ given = kept)
    (haccounted : Passes w p looked → Accounted (entriesOf w p items) keep warning made) :
    Settles (entriesOf w p items) looked keep warning made := by
  refine ⟨?_, fun given hgiven => ?_⟩
  · rw [← h.passes_iff_fits hshort]
    exact ⟨fun ⟨given, hgiven⟩ => ((hok given).mp hgiven).1,
      fun hall => ⟨_, (hok _).mpr ⟨hall, rfl⟩⟩⟩
  · have hall := haccounted ((hok given).mp hgiven).1
    exact ⟨hall, hall.length_eq⟩

/-- **Every entry of a descriptor is given or warned about.**  A project settles the sources that it
declares, and looks at each of them; a solution settles the projects that it declares, and looks at
those that are projects by their names. -/
theorem entries_settled (w : Workspace) (c : TargetsConfig) (target : String)
    (items : List Value) :
    (isSolution c (Path.ofString target) = false → isProject c (Path.ofString target) = true →
      Declares w (Path.ofString target) "sources" items →
      (∀ q ∈ entriesOf w (Path.ofString target) items,
        ∀ n ∈ q.names, FileTree.tooLong n = false) →
      Settles (entriesOf w (Path.ofString target) items)
        (entriesOf w (Path.ofString target) items) (keepsSource w c)
        (sourceWarning w (Path.ofString target)) (resolve w c target)) ∧
    (isSolution c (Path.ofString target) = true →
      Declares w (Path.ofString target) "projects" items →
      (∀ q ∈ (entriesOf w (Path.ofString target) items).filter (isProject c),
        ∀ n ∈ q.names, FileTree.tooLong n = false) →
      Settles (entriesOf w (Path.ofString target) items)
        ((entriesOf w (Path.ofString target) items).filter (isProject c)) (keepsProject w c)
        (projectWarning c (Path.ofString target)) (projectFiles w c target)) := by
  constructor
  · intro hsolution hproject h hshort
    rw [resolve_of_isFile h.file, if_neg (by simp [hsolution]), if_pos hproject]
    exact h.settles hshort (fun _ => h.projectSources_eq_ok_iff) h.accounted_projectSources
  · intro hsolution h hshort
    rw [projectFiles_of_isFile h.file, if_pos hsolution]
    exact h.settles hshort (fun _ => h.solutionProjects_eq_ok_iff) h.accounted_solutionProjects

/-- A project with entries of all sorts, and a solution of it. -/
theorem entries_settled_of_mixed :
    let w : Workspace := ⟨.dir [
      ("s.lksln", .file
        ⟨"projects: [p.lkproj, a.py, gone.lkproj, ./p.lkproj, gone.txt]".toUTF8.toList⟩),
      ("p.lkproj", .file
        ⟨"sources: [a.py, d/../a.py, gone.py, t.txt, \"n\\0.py\", '', 7, /b.py, gone.py]".toUTF8.toList⟩),
      ("a.py", .file ⟨[]⟩), ("b.py", .file ⟨[]⟩), ("t.txt", .file ⟨[]⟩)], [], [], .bare⟩
    (∃ entries, entries.length = 8 ∧
      Settles entries entries (keepsSource w {}) (sourceWarning w (Path.ofString "p.lkproj"))
        (resolve w {} "p.lkproj")) ∧
    (resolve w {} "p.lkproj").outcome = .ok [⟨.slash, ["a.py"]⟩, ⟨.slash, ["b.py"]⟩] ∧
    (∃ entries, entries.length = 5 ∧
      Settles entries (entries.filter (isProject {})) (keepsProject w {})
        (projectWarning {} (Path.ofString "s.lksln")) (projectFiles w {} "s.lksln")) ∧
    (projectFiles w {} "s.lksln").outcome = .ok [⟨.slash, ["p.lkproj"]⟩] := by
  intro w
  obtain ⟨sources, hsources, hlisted⟩ : ∃ items,
      Declares w (Path.ofString "p.lkproj") "sources" items ∧ items.filterMap text? = _ :=
    exists_declares (by decide +kernel)
      ["a.py", "d/../a.py", "gone.py", "t.txt", "n\x00.py", "", "/b.py", "gone.py"]
      (by decide +kernel)
  obtain ⟨projects, hprojects, hlisted'⟩ : ∃ items,
      Declares w (Path.ofString "s.lksln") "projects" items ∧ items.filterMap text? = _ :=
    exists_declares (by decide +kernel)
      ["p.lkproj", "a.py", "gone.lkproj", "./p.lkproj", "gone.txt"] (by decide +kernel)
  have hproject := (entries_settled w {} "p.lkproj" sources).1 (by decide +kernel)
    (by decide +kernel) hsources (by rw [entriesOf, hlisted]; decide +kernel)
  have hsolution := (entries_settled w {} "s.lksln" projects).2 (by decide +kernel) hprojects
    (by rw [entriesOf, hlisted']; decide +kernel)
  rw [entriesOf, hlisted] at hproject
  rw [entriesOf, hlisted'] at hsolution
  obtain ⟨units, hunits⟩ := hproject.returns_iff.mpr (by decide +kernel)
  obtain ⟨found, hfound⟩ := hsolution.returns_iff.mpr (by decide +kernel)
  refine ⟨⟨_, rfl, hproject⟩, ?_, ⟨_, rfl, hsolution⟩, ?_⟩
  · rw [(hproject.accounted units hunits).1.kept]
    decide +kernel
  · rw [(hsolution.accounted found hfound).1.kept]
    decide +kernel

/-- A project next to a source that can be followed from its own directory only. -/
def buriedProject : Workspace :=
  ⟨nested (List.replicate 17 wideName) (.dir [
      ("p.lkproj", .file ⟨"sources: [m.py]".toUTF8.toList⟩), ("m.py", .file ⟨[]⟩)]),
    List.replicate 17 wideName, [], .bare⟩

/-- A project that declares a short name, which is none where it is followed from. -/
theorem unresolved_of_buried :
    isSolution {} (Path.ofString "p.lkproj") = false ∧
    isProject {} (Path.ofString "p.lkproj") = true ∧
    (∃ items, Declares buriedProject (Path.ofString "p.lkproj") "sources" items ∧
      items.filterMap text? = ["m.py"] ∧
      ∀ q ∈ entriesOf buriedProject (Path.ofString "p.lkproj") items,
        ∀ n ∈ q.names, FileTree.tooLong n = false) ∧
    ∀ units, (resolve buriedProject {} "p.lkproj").outcome ≠ .ok units := by
  have hsolution : isSolution {} (Path.ofString "p.lkproj") = false := by decide +kernel
  have hproject : isProject {} (Path.ofString "p.lkproj") = true := by decide +kernel
  obtain ⟨items, hitems, hlisted⟩ : ∃ items,
      Declares buriedProject (Path.ofString "p.lkproj") "sources" items ∧
        items.filterMap text? = ["m.py"] :=
    exists_declares (by decide +kernel) ["m.py"] (by decide +kernel)
  have hentries : entriesOf buriedProject (Path.ofString "p.lkproj") items = [buriedUnit] := by
    rw [entriesOf, hlisted]
    decide +kernel
  have hnames : ∀ n ∈ buriedUnit.names, FileName n :=
    isUnit_buriedUnit.fileNames sound_buried.proper
  have hshort : ∀ q ∈ entriesOf buriedProject (Path.ofString "p.lkproj") items,
      ∀ n ∈ q.names, FileTree.tooLong n = false := by
    rw [hentries, List.forall_mem_singleton]
    exact fun n hn => (hnames n hn).notTooLong
  refine ⟨hsolution, hproject, ⟨items, hitems, hlisted, hshort⟩, fun units hunits => ?_⟩
  rw [resolve_of_isFile hitems.file, if_neg (by simp [hsolution]), if_pos hproject,
    hitems.projectSources_eq_ok_iff, hitems.passes_iff_fits hshort, hentries] at hunits
  have hfits := hunits.1 buriedUnit (List.mem_singleton_self _)
    (isUnit_buriedUnit.spellable sound_buried.proper)
  exact absurd long_buriedUnit (Nat.not_lt.mpr hfits)

end LintHost.Target
