/-
What loading several modules comes to.

Modules are loaded one after the other, each in the state that those before it have left, for the
number in a module's name counts them.  `LoadsInTurn` says what comes of each path: a module, or why
there is none.  Nothing else can come of a path where loading ends well, nothing is left out and
nothing changes its place: `loadAll_eq_ok_iff`, and `LoadsInTurn.map_path` for the paths.
-/
import LintHost.Plugin.Loader
import LintHost.Proofs.Outcome

namespace LintHost.Plugin

open LintHost.Outcome

/-- What comes of a path. -/
abbrev LoadOutcome := Except LoadFailure Loaded

/-- The path that something came of. -/
def LoadOutcome.path : LoadOutcome → String
  | .ok plugin => plugin.path
  | .error f => f.path

/-- The modules among what came of paths. -/
def modulesOf (os : List LoadOutcome) : List Loaded := os.filterMap Except.toOption

/-- The failures among what came of paths. -/
def failuresOf (os : List LoadOutcome) : List LoadFailure :=
  os.filterMap fun
    | .ok _ => none
    | .error f => some f

/-- What comes of paths one after the other. -/
inductive LoadsInTurn (w : Workspace) : LoadState → List String → List LoadOutcome → Prop
  | done {s : LoadState} : LoadsInTurn w s [] []
  /-- A path gives a module. -/
  | loaded {s : LoadState} {path : String} {rest : List String} {plugin : Loaded}
      {os : List LoadOutcome} (h : (load w s path).journal.outcome = .ok plugin)
      (more : LoadsInTurn w (load w s path).state rest os) :
      LoadsInTurn w s (path :: rest) (.ok plugin :: os)
  /-- A path gives none. -/
  | failed {s : LoadState} {path : String} {rest : List String} {f : LoadFailure}
      {os : List LoadOutcome} (h : (load w s path).journal.outcome = .error (.load f))
      (more : LoadsInTurn w (load w s path).state rest os) :
      LoadsInTurn w s (path :: rest) (.error f :: os)

variable {w : Workspace} {s : LoadState} {path : String} {paths : List String}

/-! ### One path -/

/-- Is the failure of something that went through. -/
def IsEscape (f : Failure) : Prop := ∃ e : Escape, f = e.failure

/-- What goes through is no report of a module that cannot be loaded. -/
theorem IsEscape.not_load {f : Failure} (h : IsEscape f) (l : LoadFailure) : f ≠ .load l := by
  obtain ⟨e, rfl⟩ := h
  cases e <;> exact fun heq => (nomatch heq)

theorem asked_escapes {α : Type} (x : Except Escape α) :
    FailsWith IsEscape (Journal.asked x).outcome :=
  FailsWith.mapError fun e => ⟨e, rfl⟩

theorem findClass_escapes (stem shown : String) (c : ClassView) :
    FailsWith IsEscape (findClass stem shown c).outcome := by
  unfold findClass
  split_ifs
  · cases c.make with
    | ok analyze =>
      simp only [Journal.bind_outcome]
      exact (asked_escapes analyze).bind fun _ => FailsWith.ok _
    | error raised =>
      simp only [Journal.bind_outcome]
      exact (asked_escapes raised.told).bind fun _ => FailsWith.ok _
  · exact FailsWith.ok _

theorem find_escapes (m : Module) (stem shown : String) (a : Attribute) :
    FailsWith IsEscape (m.find stem shown a).outcome := by
  unfold Module.find
  rw [Journal.bind_outcome]
  refine (asked_escapes _).bind fun own => ?_
  match own with
  | none => exact FailsWith.ok _
  | some (.cls c) => exact findClass_escapes stem shown c
  | some (.object _ _) => exact FailsWith.ok _

theorem findAll_escapes (m : Module) (stem shown : String) (members : List (String × Attribute)) :
    FailsWith IsEscape (m.findAll stem shown members).outcome := by
  induction members with
  | nil => exact FailsWith.ok _
  | cons first rest ih =>
    rw [Module.findAll]
    simp only [Journal.bind_outcome]
    exact (find_escapes m stem shown _).bind fun _ => ih.bind fun _ => FailsWith.ok _

/-- Nothing but what a module raises keeps it from being gone through. -/
theorem discover_escapes (m : Module) (stem shown : String) :
    FailsWith IsEscape (discover m stem shown).outcome := by
  unfold discover
  rw [Journal.bind_outcome]
  exact (asked_escapes _).bind fun members => findAll_escapes m stem shown members

/-- So nothing else keeps a module that was imported from being loaded. -/
theorem imported_escapes (name : String) (p : Path) (m : Module) :
    FailsWith IsEscape (importModule path name p (.ok m) s).journal.outcome := by
  simp only [importModule, Journal.bind_outcome]
  exact (discover_escapes m _ _).bind fun _ => FailsWith.ok _

/-- What is told of a path: it is that of the module, or that of the report why there is none; or
something went through. -/
def Tells (path : String) : Except Failure Loaded → Prop :=
  Ends (fun plugin => plugin.path = path) fun f => IsEscape f ∨ ∃ problem, f = .load ⟨path, problem⟩

theorem importModule_tells (name : String) (p : Path) (imported : Except Raised Module) :
    Tells path (importModule path name p imported s).journal.outcome := by
  have htold : ∀ raised : Raised, Tells path (do
      let told ← Journal.asked raised.told
      Journal.fail (.load ⟨path, .failed told.2⟩) : Journal Loaded).outcome := by
    intro raised
    rw [Journal.bind_outcome]
    refine Ends.bind ((asked_escapes raised.told).weaken fun _ => Or.inl) fun told _ => ?_
    exact Or.inr ⟨.failed told.2, rfl⟩
  cases imported with
  | error raised =>
    cases raised with
    | interrupt kind => exact Or.inl ⟨.interrupt kind, rfl⟩
    | exception | speechless => exact htold _
  | ok m =>
    simp only [importModule, Journal.bind_outcome]
    exact Ends.bind ((discover_escapes m _ _).weaken fun _ => Or.inl) fun _ _ => rfl

/-- Whatever comes of loading a path tells the path. -/
theorem load_tells (w : Workspace) (s : LoadState) (path : String) :
    Tells path (load w s path).journal.outcome := by
  unfold load
  split_ifs
  · exact importModule_tells _ _ _
  · exact Or.inr ⟨.notFound, rfl⟩

theorem path_of_loaded {plugin : Loaded} (h : (load w s path).journal.outcome = .ok plugin) :
    plugin.path = path :=
  (ends_iff.mp (load_tells w s path)).1 plugin h

theorem path_of_failed {f : LoadFailure}
    (h : (load w s path).journal.outcome = .error (.load f)) : f.path = path := by
  rcases (ends_iff.mp (load_tells w s path)).2 _ h with hescape | ⟨problem, hf⟩
  · exact absurd rfl (hescape.not_load f)
  · rw [Failure.load.inj hf]

/-! ### All paths -/

/-- Each path has something that came of it, in its place. -/
theorem LoadsInTurn.map_path {os : List LoadOutcome} (h : LoadsInTurn w s paths os) :
    os.map LoadOutcome.path = paths := by
  induction h with
  | done => rfl
  | loaded h _ ih => rw [List.map_cons, ih, LoadOutcome.path, path_of_loaded h]
  | failed h _ ih => rw [List.map_cons, ih, LoadOutcome.path, path_of_failed h]

/-- What came of the paths is what loading them gives. -/
theorem LoadsInTurn.loadAll {os : List LoadOutcome} (h : LoadsInTurn w s paths os) :
    (Plugin.loadAll w s paths).journal.outcome =
      .ok (modulesOf os, (failuresOf os).map LoadFailure.message) := by
  induction h with
  | done => rfl
  | loaded h _ ih =>
    rw [Plugin.loadAll, h]
    exact map_eq_ok_iff.mpr ⟨_, ih, rfl⟩
  | failed h _ ih =>
    rw [Plugin.loadAll, h]
    exact map_eq_ok_iff.mpr ⟨_, ih, rfl⟩

/-- Where loading gives anything, something came of every path. -/
theorem exists_loadsInTurn {r : List Loaded × List String}
    (h : (loadAll w s paths).journal.outcome = .ok r) : ∃ os, LoadsInTurn w s paths os := by
  induction paths generalizing s r with
  | nil => exact ⟨[], .done⟩
  | cons path rest ih =>
    rw [loadAll] at h
    cases hone : (load w s path).journal.outcome with
    | ok plugin =>
      simp only [hone] at h
      obtain ⟨more, hmore, -⟩ := map_eq_ok_iff.mp h
      obtain ⟨os, hos⟩ := ih hmore
      exact ⟨_, .loaded hone hos⟩
    | error f =>
      cases f with
      | load l =>
        simp only [hone] at h
        obtain ⟨more, hmore, -⟩ := map_eq_ok_iff.mp h
        obtain ⟨os, hos⟩ := ih hmore
        exact ⟨_, .failed hone hos⟩
      | _ =>
        simp only [hone] at h
        cases h

/-- Loading several modules fails with what goes through, and with nothing else. -/
theorem loadAll_escapes (w : Workspace) (s : LoadState) (paths : List String) :
    FailsWith IsEscape (loadAll w s paths).journal.outcome := by
  induction paths generalizing s with
  | nil => exact FailsWith.ok _
  | cons path rest ih =>
    have hone := load_tells w s path
    rw [loadAll]
    split
    · exact (ih _).map _
    · exact (ih _).map _
    · rename_i e hother houtcome
      rcases (ends_iff.mp hone).2 e houtcome with hescape | ⟨problem, rfl⟩
      · exact hescape
      · exact absurd rfl (hother _)

/-- **Loading several modules ends well exactly where each path gives a module or its failure, and
then it gives the modules and the messages of the failures, both in the order of the paths.** -/
theorem loadAll_eq_ok_iff {plugins : List Loaded} {errors : List String} :
    (loadAll w s paths).journal.outcome = .ok (plugins, errors) ↔
      ∃ os, LoadsInTurn w s paths os ∧ plugins = modulesOf os ∧
        errors = (failuresOf os).map LoadFailure.message := by
  constructor
  · intro h
    obtain ⟨os, hos⟩ := exists_loadsInTurn h
    obtain ⟨hplugins, herrors⟩ := Prod.mk.inj (Except.ok.inj (h.symm.trans hos.loadAll))
    exact ⟨os, hos, hplugins, herrors⟩
  · rintro ⟨os, hos, rfl, rfl⟩
    exact hos.loadAll

end LintHost.Plugin
