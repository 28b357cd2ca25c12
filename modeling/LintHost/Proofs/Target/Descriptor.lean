/-
What descriptors give to a resolution.

A resolution goes through descriptors in passes: it reads what one lists, looks at every path that
is listed, and keeps those that fit.  Each pass is told here by what it gives when nothing ends it,
its notes included, and by what has to hold for that.  There are only two things that can end a
pass.  A path can be too long to be looked at; and a descriptor can fail in a way that does not
count as unreadable, `Breaks`.  Every other descriptor is `Tolerable`: it gives the paths that it
lists, or it gives none and there is a warning about it.

Nothing else about descriptors is used when targets are resolved: `keptSources`, `keptProjects`,
`projectSources`, `solutionProjects` and `sourcesOf` are not opened again.
-/
import LintHost.Target
import LintHost.Proofs.Walk

namespace LintHost.Target

open Outcome

/-- Reading the descriptor fails in a way that ends the resolution. -/
def Breaks (w : Workspace) (p : Path) (e : Failure) : Prop :=
  readYaml w p = .error e ∧ isUnreadable e = false

/-- Reading the descriptor does not end the resolution. -/
def Tolerable (w : Workspace) (p : Path) : Prop := ∀ e, ¬ Breaks w p e

/-- The paths that a descriptor lists under a key, as far as it does. -/
def listing (w : Workspace) (p : Path) (key : String) : List Path :=
  match readYaml w p with
  | .ok data =>
    ((listedTexts key data).getD []).map fun s => w.normalize (p.parent.join (Path.ofString s))
  | .error _ => []

/-- The warning about a descriptor that lists nothing under a key. -/
def warning? (w : Workspace) (p : Path) (key : String) : Option Event :=
  match readYaml w p with
  | .ok data =>
    if (listedTexts key data).isSome then none else some (.descriptorMissingList p.toString key)
  | .error _ => some (.descriptorUnreadable p.toString)

/-- A source that a project keeps. -/
def keepsSource (w : Workspace) (c : TargetsConfig) (p : Path) : Bool := w.isThere p && isSource c p

/-- A project that a solution keeps. -/
def keepsProject (w : Workspace) (c : TargetsConfig) (p : Path) : Bool :=
  isProject c p && w.isThere p

/-- The note about a source that a project does not keep. -/
def skippedSource? (w : Workspace) (c : TargetsConfig) (project p : Path) : Option Event :=
  if !w.isThere p then some (.projectSourceMissing project.toString p.toString)
  else if !isSource c p then some (.projectSourceIgnored project.toString p.toString)
  else none

/-- The note about a project that a solution does not keep. -/
def skippedProject? (w : Workspace) (c : TargetsConfig) (solution p : Path) : Option Event :=
  if !isProject c p then some (.solutionEntryNotAProject solution.toString p.toString)
  else if !w.isThere p then some (.solutionProjectMissing solution.toString p.toString)
  else none

/-- The sources that a project gives. -/
def sourcesIn (w : Workspace) (c : TargetsConfig) (p : Path) : List Path :=
  dedupe ((listing w p "sources").filter (keepsSource w c))

/-- The projects that a solution gives. -/
def projectsIn (w : Workspace) (c : TargetsConfig) (p : Path) : List Path :=
  dedupe ((listing w p "projects").filter (keepsProject w c))

/-- The notes of a project. -/
def projectNotes (w : Workspace) (c : TargetsConfig) (p : Path) : List Event :=
  (warning? w p "sources").toList ++ (listing w p "sources").filterMap (skippedSource? w c p)

/-- The notes of a solution about its projects. -/
def solutionNotes (w : Workspace) (c : TargetsConfig) (p : Path) : List Event :=
  (warning? w p "projects").toList ++ (listing w p "projects").filterMap (skippedProject? w c p)

/-- Nothing ends a pass that reads a descriptor and then looks at paths. -/
structure Passes (w : Workspace) (p : Path) (looked : List Path) : Prop where
  tolerable : Tolerable w p
  lookable : ∀ q ∈ looked, w.Lookable q

/-- The paths that are looked at for a project. -/
def lookedAtFor (w : Workspace) (p : Path) : List Path := listing w p "sources"

/-- The paths that are looked at for the projects of a solution. -/
def lookedAtForProjects (w : Workspace) (c : TargetsConfig) (p : Path) : List Path :=
  (listing w p "projects").filter (isProject c)

variable {w : Workspace} {c : TargetsConfig}

/-! ### Reading a descriptor -/

theorem readYaml_of_openFile {p : Path} {file : File} (h : w.openFile p = .ok file) :
    readYaml w p =
      (Yaml.valueOf w.interpreter.nestingRoom p.toString
        (Text.Portion.read file.bytes)).mapError .yaml := by
  simp only [readYaml, Workspace.readText, h, bind, Except.bind]

/-- What a descriptor lists, by what it holds. -/
theorem listedPaths_outcome (w : Workspace) (p : Path) (key : String) :
    (listedPaths w p key).outcome = match readYaml w p with
      | .error e => if isUnreadable e then .ok [] else .error e
      | .ok data => .ok (((listedTexts key data).getD []).map fun s =>
          w.normalize (p.parent.join (Path.ofString s))) := by
  rw [listedPaths]
  cases readYaml w p with
  | error e =>
    dsimp only
    split_ifs <;> rfl
  | ok data =>
    dsimp only
    cases listedTexts key data <;> rfl

/-- A descriptor with a warning lists nothing. -/
theorem listing_of_warning {p : Path} {key : String} {e : Event} (h : warning? w p key = some e) :
    listing w p key = [] := by
  unfold warning? at h
  unfold listing
  cases hread : readYaml w p with
  | error d => rfl
  | ok data =>
    simp only [hread] at h ⊢
    cases htexts : listedTexts key data with
    | some texts =>
      rw [htexts] at h
      cases h
    | none => rfl

theorem listedPaths_of_tolerable {p : Path} (h : Tolerable w p) (key : String) :
    listedPaths w p key = ⟨(warning? w p key).toList, .ok (listing w p key)⟩ := by
  unfold listedPaths warning? listing
  cases hread : readYaml w p with
  | error e =>
    have hunreadable : isUnreadable e = true := by
      rw [← Bool.not_eq_false]
      exact fun hbreaks => h e ⟨hread, hbreaks⟩
    simp only [if_pos hunreadable]
    rfl
  | ok data =>
    simp only
    cases listedTexts key data <;> rfl

theorem listedPaths_of_breaks {p : Path} {e : Failure} (h : Breaks w p e) (key : String) :
    listedPaths w p key = ⟨[], .error e⟩ := by
  unfold listedPaths
  rw [h.1]
  simp only [h.2, Bool.false_eq_true, if_false]
  rfl

theorem tolerable_or_breaks (w : Workspace) (p : Path) : Tolerable w p ∨ ∃ e, Breaks w p e := by
  by_cases h : ∃ e, Breaks w p e
  · exact Or.inr h
  · exact Or.inl fun e he => h ⟨e, he⟩

theorem listedPaths_eq_ok_iff {p : Path} {key : String} {ps : List Path} :
    (listedPaths w p key).outcome = .ok ps ↔ Tolerable w p ∧ ps = listing w p key := by
  rcases tolerable_or_breaks w p with htol | ⟨e, he⟩
  · rw [listedPaths_of_tolerable htol]
    exact ⟨fun h => ⟨htol, (Except.ok.inj h).symm⟩, fun h => by rw [h.2]⟩
  · rw [listedPaths_of_breaks he]
    constructor
    · intro h
      cases h
    · rintro ⟨htol, -⟩
      exact absurd he (htol e)

theorem listedPaths_eq_error_iff {p : Path} {key : String} {e : Failure} :
    (listedPaths w p key).outcome = .error e ↔ Breaks w p e := by
  rcases tolerable_or_breaks w p with htol | ⟨d, hd⟩
  · rw [listedPaths_of_tolerable htol]
    constructor
    · intro h
      cases h
    · intro h
      exact absurd h (htol e)
  · rw [listedPaths_of_breaks hd]
    constructor
    · intro h
      rw [← Except.error.inj h]
      exact hd
    · intro h
      rw [Except.error.inj (hd.1.symm.trans h.1)]

/-! ### Keeping what is listed -/

theorem mapM_isFile_eq_ok_iff {ps : List Path} :
    (∃ bs, ps.mapM w.isFile = .ok bs) ↔ ∀ p ∈ ps, w.Lookable p := by
  constructor
  · rintro ⟨bs, hbs⟩ p hp
    obtain ⟨b, -, hb⟩ := forall₂_left_mem (mapM_eq_ok_iff.mp hbs) hp
    exact ⟨b, hb⟩
  · intro h
    induction ps with
    | nil => exact ⟨[], rfl⟩
    | cons p rest ih =>
      obtain ⟨b, hb⟩ := h p (by simp)
      obtain ⟨bs, hbs⟩ := ih fun q hq => h q (by simp [hq])
      exact ⟨b :: bs, mapM_cons_eq_ok.mpr ⟨b, bs, hb, hbs, rfl⟩⟩

/-- A pass over the sources of a project looks at every one of them and keeps some. -/
theorem keptSources_outcome (project : Path) (ps : List Path) :
    (keptSources w c project ps).outcome =
      (fun _ => ps.filter (keepsSource w c)) <$> ps.mapM w.isFile := by
  induction ps with
  | nil => rfl
  | cons p rest ih =>
    rw [keptSources, List.mapM_cons, List.filter_cons, keepsSource, Journal.bind_outcome]
    cases hfile : w.isFile p with
    | error e => rfl
    | ok b =>
      rw [Workspace.isThere_of_isFile hfile]
      cases b with
      | false =>
        show (keptSources w c project rest).outcome = _
        rw [ih]
        cases rest.mapM w.isFile <;> rfl
      | true =>
        cases hsource : isSource c p with
        | false =>
          show (keptSources w c project rest).outcome = _
          rw [ih]
          cases rest.mapM w.isFile <;> rfl
        | true =>
          show (keptSources w c project rest >>= fun more => pure (p :: more)).outcome = _
          rw [Journal.bind_outcome, ih]
          cases rest.mapM w.isFile <;> rfl

/-- A pass over the entries of a solution looks at those that are projects by name, and keeps
some. -/
theorem keptProjects_outcome (solution : Path) (ps : List Path) :
    (keptProjects w c solution ps).outcome =
      (fun _ => ps.filter (keepsProject w c)) <$> (ps.filter (isProject c)).mapM w.isFile := by
  induction ps with
  | nil => rfl
  | cons p rest ih =>
    rw [keptProjects, List.filter_cons, List.filter_cons, keepsProject]
    cases hproject : isProject c p with
    | false => exact ih
    | true =>
      rw [if_neg (by simp), if_pos rfl, List.mapM_cons, Journal.bind_outcome]
      cases hfile : w.isFile p with
      | error e => rfl
      | ok b =>
        rw [Workspace.isThere_of_isFile hfile]
        cases b with
        | false =>
          show (keptProjects w c solution rest).outcome = _
          rw [ih]
          cases (rest.filter (isProject c)).mapM w.isFile <;> rfl
        | true =>
          show (keptProjects w c solution rest >>= fun more => pure (p :: more)).outcome = _
          rw [Journal.bind_outcome, ih]
          cases (rest.filter (isProject c)).mapM w.isFile <;> rfl

theorem keptSources_events (project : Path) {ps : List Path} (h : ∀ p ∈ ps, w.Lookable p) :
    (keptSources w c project ps).events = ps.filterMap (skippedSource? w c project) := by
  induction ps with
  | nil => rfl
  | cons p rest ih =>
    have hrest : ∀ q ∈ rest, w.Lookable q := fun q hq => h q (by simp [hq])
    obtain ⟨b, hb⟩ := h p (by simp)
    rw [keptSources, List.filterMap_cons, skippedSource?, Workspace.isThere_of_isFile hb, hb,
      ← ih hrest]
    cases b with
    | false => exact Journal.note_events _ _
    | true =>
      cases hsource : isSource c p with
      | false => exact Journal.note_events _ _
      | true => exact Journal.bind_pure_events _ _

theorem keptProjects_events (solution : Path) {ps : List Path}
    (h : ∀ p ∈ ps.filter (isProject c), w.Lookable p) :
    (keptProjects w c solution ps).events = ps.filterMap (skippedProject? w c solution) := by
  induction ps with
  | nil => rfl
  | cons p rest ih =>
    rw [List.filter_cons] at h
    rw [keptProjects, List.filterMap_cons, skippedProject?]
    cases hproject : isProject c p with
    | false =>
      rw [hproject, if_neg (by simp)] at h
      rw [← ih h]
      exact Journal.note_events _ _
    | true =>
      rw [hproject, if_pos rfl] at h
      obtain ⟨b, hb⟩ := h p (by simp)
      have hrest : ∀ q ∈ rest.filter (isProject c), w.Lookable q :=
        fun q hq => h q (List.mem_cons_of_mem _ hq)
      rw [Workspace.isThere_of_isFile hb, hb, ← ih hrest]
      cases b with
      | false => exact Journal.note_events _ _
      | true => exact Journal.bind_pure_events _ _

/-! ### The pass over a project, and over the entries of a solution -/

theorem projectSources_outcome (p : Path) :
    (projectSources w c p).outcome = (listedPaths w p "sources").outcome >>= fun listed =>
      (fun _ => dedupe (listed.filter (keepsSource w c))) <$> listed.mapM w.isFile := by
  rw [projectSources, Journal.bind_outcome]
  congr 1
  funext listed
  rw [Journal.bind_outcome, keptSources_outcome]
  cases listed.mapM w.isFile <;> rfl

theorem solutionProjects_outcome (p : Path) :
    (solutionProjects w c p).outcome = (listedPaths w p "projects").outcome >>= fun listed =>
      (fun _ => dedupe (listed.filter (keepsProject w c))) <$>
        (listed.filter (isProject c)).mapM w.isFile := by
  rw [solutionProjects, Journal.bind_outcome]
  congr 1
  funext listed
  rw [Journal.bind_outcome, keptProjects_outcome]
  cases (listed.filter (isProject c)).mapM w.isFile <;> rfl

theorem projectSources_eq_ok_iff {p : Path} {us : List Path} :
    (projectSources w c p).outcome = .ok us ↔
      Passes w p (lookedAtFor w p) ∧ us = sourcesIn w c p := by
  rw [projectSources_outcome, bind_eq_ok_iff]
  simp only [listedPaths_eq_ok_iff, map_eq_ok_iff]
  constructor
  · rintro ⟨listed, ⟨htol, rfl⟩, bs, hbs, rfl⟩
    exact ⟨⟨htol, mapM_isFile_eq_ok_iff.mp ⟨bs, hbs⟩⟩, rfl⟩
  · rintro ⟨⟨htol, hlook⟩, rfl⟩
    obtain ⟨bs, hbs⟩ := mapM_isFile_eq_ok_iff.mpr hlook
    exact ⟨_, ⟨htol, rfl⟩, bs, hbs, rfl⟩

theorem solutionProjects_eq_ok_iff {p : Path} {ps : List Path} :
    (solutionProjects w c p).outcome = .ok ps ↔
      Passes w p (lookedAtForProjects w c p) ∧ ps = projectsIn w c p := by
  rw [solutionProjects_outcome, bind_eq_ok_iff]
  simp only [listedPaths_eq_ok_iff, map_eq_ok_iff]
  constructor
  · rintro ⟨listed, ⟨htol, rfl⟩, bs, hbs, rfl⟩
    exact ⟨⟨htol, mapM_isFile_eq_ok_iff.mp ⟨bs, hbs⟩⟩, rfl⟩
  · rintro ⟨⟨htol, hlook⟩, rfl⟩
    obtain ⟨bs, hbs⟩ := mapM_isFile_eq_ok_iff.mpr hlook
    exact ⟨_, ⟨htol, rfl⟩, bs, hbs, rfl⟩

theorem projectSources_events {p : Path} (h : Passes w p (lookedAtFor w p)) :
    (projectSources w c p).events = projectNotes w c p := by
  have hkept : (keptSources w c p (listing w p "sources")).events =
      (listing w p "sources").filterMap (skippedSource? w c p) := keptSources_events p h.lookable
  rw [projectSources, listedPaths_of_tolerable h.tolerable, Journal.bind_events _ _ _ rfl,
    Journal.bind_pure_events, hkept, projectNotes]

theorem solutionProjects_events {p : Path} (h : Passes w p (lookedAtForProjects w c p)) :
    (solutionProjects w c p).events = solutionNotes w c p := by
  have hkept : (keptProjects w c p (listing w p "projects")).events =
      (listing w p "projects").filterMap (skippedProject? w c p) :=
    keptProjects_events p h.lookable
  rw [solutionProjects, listedPaths_of_tolerable h.tolerable, Journal.bind_events _ _ _ rfl,
    Journal.bind_pure_events, hkept, solutionNotes]

/-! ### What is given is there -/

theorem isFile_of_mem_sourcesIn {p u : Path} (hu : u ∈ sourcesIn w c p) :
    w.isFile u = .ok true := by
  obtain ⟨-, hkeeps⟩ := List.mem_filter.mp ((mem_dedupe _ _).mp hu)
  exact isTrue_iff.mp ((Bool.and_eq_true _ _).mp hkeeps).1

theorem isFile_of_mem_projectsIn {p q : Path} (hq : q ∈ projectsIn w c p) :
    w.isFile q = .ok true ∧ isProject c q = true := by
  obtain ⟨-, hkeeps⟩ := List.mem_filter.mp ((mem_dedupe _ _).mp hq)
  obtain ⟨hproject, hthere⟩ := (Bool.and_eq_true _ _).mp hkeeps
  exact ⟨isTrue_iff.mp hthere, hproject⟩

/-! ### The passes over all projects of a solution -/

theorem sourcesOf_cons_outcome (p : Path) (rest : List Path) :
    (sourcesOf w c (p :: rest)).outcome = (projectSources w c p).outcome >>= fun here =>
      (here ++ ·) <$> (sourcesOf w c rest).outcome := by
  rw [sourcesOf, Journal.bind_outcome]
  congr 1
  funext here
  rw [Journal.bind_outcome]
  rfl

theorem solutionSources_outcome (p : Path) :
    (solutionSources w c p).outcome = (solutionProjects w c p).outcome >>= fun projects =>
      dedupe <$> (sourcesOf w c projects).outcome := by
  rw [solutionSources, Journal.bind_outcome]
  congr 1
  funext projects
  rw [Journal.bind_outcome]
  rfl

theorem sourcesOf_eq_ok_iff {ps us : List Path} :
    (sourcesOf w c ps).outcome = .ok us ↔
      (∀ p ∈ ps, Passes w p (lookedAtFor w p)) ∧ us = ps.flatMap (sourcesIn w c) := by
  induction ps generalizing us with
  | nil =>
    constructor
    · intro h
      exact ⟨by simp, (Except.ok.inj h).symm⟩
    · rintro ⟨-, rfl⟩
      rfl
  | cons p rest ih =>
    rw [sourcesOf_cons_outcome, bind_eq_ok_iff, List.forall_mem_cons, List.flatMap_cons]
    simp only [projectSources_eq_ok_iff, map_eq_ok_iff, ih]
    constructor
    · rintro ⟨here, ⟨hp, rfl⟩, more, ⟨hrest, rfl⟩, rfl⟩
      exact ⟨⟨hp, hrest⟩, rfl⟩
    · rintro ⟨⟨hp, hrest⟩, rfl⟩
      exact ⟨_, ⟨hp, rfl⟩, _, ⟨hrest, rfl⟩, rfl⟩

theorem sourcesOf_events {ps : List Path} (h : ∀ p ∈ ps, Passes w p (lookedAtFor w p)) :
    (sourcesOf w c ps).events = ps.flatMap (projectNotes w c) := by
  induction ps with
  | nil => rfl
  | cons p rest ih =>
    have hp := h p (by simp)
    rw [sourcesOf, Journal.bind_events _ _ _ (projectSources_eq_ok_iff.mpr ⟨hp, rfl⟩),
      Journal.bind_pure_events, projectSources_events hp, ih fun q hq => h q (by simp [hq]),
      List.flatMap_cons]

/-- Nothing ends the passes over a solution and its projects. -/
structure SolutionPasses (w : Workspace) (c : TargetsConfig) (p : Path) : Prop where
  solution : Passes w p (lookedAtForProjects w c p)
  projects : ∀ q ∈ projectsIn w c p, Passes w q (lookedAtFor w q)

/-- **A solution gives the sources of its projects, unless one of the passes is ended.** -/
theorem solutionSources_eq_ok_iff {p : Path} {us : List Path} :
    (solutionSources w c p).outcome = .ok us ↔
      SolutionPasses w c p ∧ us = dedupe ((projectsIn w c p).flatMap (sourcesIn w c)) := by
  rw [solutionSources_outcome, bind_eq_ok_iff]
  simp only [solutionProjects_eq_ok_iff, map_eq_ok_iff, sourcesOf_eq_ok_iff]
  constructor
  · rintro ⟨projects, ⟨hsolution, rfl⟩, sources, ⟨hprojects, rfl⟩, rfl⟩
    exact ⟨⟨hsolution, hprojects⟩, rfl⟩
  · rintro ⟨⟨hsolution, hprojects⟩, rfl⟩
    exact ⟨_, ⟨hsolution, rfl⟩, _, ⟨hprojects, rfl⟩, rfl⟩

theorem solutionSources_events {p : Path} (h : SolutionPasses w c p) :
    (solutionSources w c p).events =
      solutionNotes w c p ++ (projectsIn w c p).flatMap (projectNotes w c) := by
  rw [solutionSources, Journal.bind_events _ _ _ (solutionProjects_eq_ok_iff.mpr ⟨h.solution, rfl⟩),
    Journal.bind_pure_events, solutionProjects_events h.solution, sourcesOf_events h.projects]

end LintHost.Target
