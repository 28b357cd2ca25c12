/-
Loading many modules, none of which has a say in what comes of another.

A path is `Recoverable` under a number where what importing it raises can be told, and the module
that it gives answers what it is asked.  Loading it then gives a module or the report why there is
none, and otherwise something goes through: `load_answers_iff`.  So a batch is loaded to its end
exactly where each of its paths is recoverable under the number that is next at its turn, whatever
else is missing or broken in it: `loadAll_partitions`.  What comes of a path is then what comes of
it `alone`, in a loader that has loaded nothing, under that number.

The number is in the name of the module and nowhere else.  A file that is imported as the same
module under another name, or with the same exception, comes to the same under any number.
-/
import LintHost.Proofs.Plugin.Inventory

namespace LintHost.Plugin

open LintHost.Outcome

variable {w : Workspace} {s : LoadState} {path : String} {paths : List String}

/-! ### Modules that can be answered -/

/-- What is at a path, if it is a file, is imported under a number as a module that answers, or
raises what can be told. -/
def Recoverable (w : Workspace) (n : Nat) (path : String) : Prop :=
  w.isFileText path = true →
    (∀ raised, importFile w path (nameFor n path) = .error raised →
      ∃ told, raised.told = .ok told) ∧
    ∀ m, importFile w path (nameFor n path) = .ok m → m.Answers

theorem told_iff (name : String) (p : Path) (raised : Raised) :
    (∃ o : LoadOutcome,
      (importModule path name p (.error raised) s).journal.outcome = o.mapError .load) ↔
        ∃ told, raised.told = .ok told := by
  match raised with
  | .exception kind text => exact ⟨fun _ => ⟨_, rfl⟩, fun _ => ⟨.error ⟨path, .failed text⟩, rfl⟩⟩
  | .interrupt kind =>
    refine ⟨fun ⟨o, h⟩ => ?_, fun ⟨told, h⟩ => (nomatch h)⟩
    cases o <;> cases h
  | .speechless kind instead =>
    refine ⟨fun ⟨o, h⟩ => ?_, fun ⟨told, h⟩ => (nomatch h)⟩
    cases o with
    | ok plugin => cases h
    | error f => exact absurd (Except.error.inj h) (IsEscape.not_load ⟨instead, rfl⟩ f)

/-- **A path gives a module or the report why there is none exactly where it is recoverable.** -/
theorem load_answers_iff :
    (∃ o : LoadOutcome, (load w s path).journal.outcome = o.mapError .load) ↔
      Recoverable w s.modules.counter path := by
  unfold Recoverable
  cases hfile : w.isFileText path with
  | false =>
    rw [load_missing hfile]
    exact ⟨fun _ h => (nomatch h), fun _ => ⟨.error _, rfl⟩⟩
  | true =>
    cases himport : importFile w path (nameFor s.modules.counter path) with
    | error raised =>
      rw [load_of_file hfile, himport, told_iff]
      simp
    | ok m =>
      have hload := load_ok_iff hfile himport
      have hescapes : FailsWith IsEscape (load w s path).journal.outcome := by
        rw [load_of_file hfile, himport]
        exact imported_escapes _ _ m
      simp only [reduceCtorEq, false_implies, implies_true, true_and, Except.ok.injEq,
        forall_eq', forall_const]
      rw [← hload]
      constructor
      · rintro ⟨o, ho⟩
        cases o with
        | ok plugin => exact ⟨plugin, ho⟩
        | error f => exact absurd rfl ((failsWith_iff.mp hescapes _ ho).not_load f)
      · rintro ⟨plugin, h⟩
        exact ⟨.ok plugin, h⟩

/-! ### A path alone -/

/-- Loading a path in a loader that has loaded nothing, under the next number. -/
def alone (w : Workspace) (n : Nat) (path : String) : Journal Loaded :=
  (load w (.fresh n) path).journal

/-- The number that is next where a batch comes to a place of it: files before it have taken one
each. -/
def numberAt (w : Workspace) (n : Nat) (paths : List String) (i : Nat) : Nat :=
  n + (paths.take i).countP w.isFileText

theorem numberAt_zero (n : Nat) (paths : List String) : numberAt w n paths 0 = n := rfl

theorem numberAt_succ (n : Nat) (path : String) (rest : List String) (i : Nat) :
    numberAt w n (path :: rest) (i + 1) = numberAt w (n + taken w path) rest i := by
  rw [numberAt, numberAt, List.take_succ_cons, List.countP_cons, taken]
  omega

theorem alone_counter (w : Workspace) (s : LoadState) (path : String) :
    alone w s.modules.counter path = (load w s path).journal := load_journal s rfl

/-! ### What a batch notes -/

/-- Is about a module that was loaded, or that was not. -/
def isAboutLoading : Event → Bool
  | .pluginLoaded _ _ => true
  | .pluginLoadFailed _ _ => true
  | _ => false

/-- What is noted of what came of a path. -/
def LoadOutcome.event : LoadOutcome → Event
  | .ok plugin => .pluginLoaded plugin.path (plugin.entryPoints.map (·.name))
  | .error f => .pluginLoadFailed f.path f.message

/-- What is noted of an inventory is not about loading. -/
theorem Inventory.notes_filter (i : Inventory) (stem : String) :
    (i.notes stem).filter isAboutLoading = [] := by
  rw [Inventory.notes, List.filter_eq_nil_iff]
  rintro e he
  obtain ⟨x, -, rfl⟩ := List.mem_map.mp he
  exact Bool.false_ne_true

/-- A load notes the module that comes of it, and nothing else about loading. -/
theorem load_notes {o : LoadOutcome} (h : (load w s path).journal.outcome = o.mapError .load) :
    (load w s path).journal.events.filter isAboutLoading =
      (modulesOf [o]).map fun plugin => (LoadOutcome.event (.ok plugin)) := by
  cases hfile : w.isFileText path with
  | false =>
    rw [load_missing hfile] at h ⊢
    cases o with
    | ok plugin => cases h
    | error f => rfl
  | true =>
    cases himport : importFile w path (nameFor s.modules.counter path) with
    | error raised =>
      rw [load_of_file hfile, himport] at h ⊢
      cases o with
      | ok plugin => cases raised <;> cases h
      | error f => cases raised <;> rfl
    | ok m =>
      have hanswers : m.Answers := (load_answers_iff.mp ⟨o, h⟩ hfile).2 m himport
      obtain ⟨i, -, hdiscover⟩ := discover_of_answers hanswers
      rw [load_of_module hfile himport, hdiscover] at h ⊢
      cases o with
      | error f => cases h
      | ok plugin =>
        obtain rfl := Except.ok.inj h
        show (i.notes _ ++ [_]).filter isAboutLoading = _
        rw [List.filter_append, i.notes_filter]
        rfl

/-! ### Whole batches -/

/-- Something comes of every path of a batch where each is recoverable at its turn. -/
theorem exists_loadsInTurn_iff :
    (∃ os, LoadsInTurn w s paths os) ↔ ∀ (i : Nat) (path : String), paths[i]? = some path →
      Recoverable w (numberAt w s.modules.counter paths i) path := by
  induction paths generalizing s with
  | nil => exact ⟨fun _ i path h => (nomatch h), fun _ => ⟨[], .done⟩⟩
  | cons path rest ih =>
    have hrest := ih (s := (load w s path).state)
    rw [load_counter] at hrest
    constructor
    · rintro ⟨os, hos⟩ i q hq
      cases i with
      | zero =>
        obtain rfl := Option.some.inj hq
        rw [numberAt_zero, ← load_answers_iff]
        cases hos with
        | loaded hone _ => exact ⟨.ok _, hone⟩
        | failed hone _ => exact ⟨.error _, hone⟩
      | succ i =>
        rw [numberAt_succ]
        refine hrest.mp ?_ i q hq
        cases hos with
        | loaded _ more => exact ⟨_, more⟩
        | failed _ more => exact ⟨_, more⟩
    · intro h
      have hhead := h 0 path rfl
      rw [numberAt_zero, ← load_answers_iff] at hhead
      obtain ⟨o, ho⟩ := hhead
      obtain ⟨os, hos⟩ := hrest.mpr fun i q hq => by
        have hq' := h (i + 1) q hq
        rw [numberAt_succ] at hq'
        exact hq'
      cases o with
      | ok plugin => exact ⟨_, .loaded ho hos⟩
      | error f => exact ⟨_, .failed ho hos⟩

theorem length_modulesOf_add (os : List LoadOutcome) :
    (modulesOf os).length + (failuresOf os).length = os.length := by
  induction os with
  | nil => rfl
  | cons o rest ih =>
    cases o with
    | ok plugin =>
      show (modulesOf rest).length + 1 + (failuresOf rest).length = rest.length + 1
      omega
    | error f =>
      show (modulesOf rest).length + ((failuresOf rest).length + 1) = rest.length + 1
      omega

namespace LoadsInTurn

variable {os : List LoadOutcome}

/-- What comes of a path in its turn comes of it alone, under the number that is next then. -/
theorem alone_at (h : LoadsInTurn w s paths os) {i : Nat} (hpath : paths[i]? = some path) :
    ∃ o, os[i]? = some o ∧
      (alone w (numberAt w s.modules.counter paths i) path).outcome = o.mapError .load := by
  induction h generalizing i with
  | done => cases hpath
  | @loaded s head rest plugin os hone _ ih =>
    cases i with
    | zero =>
      obtain rfl := Option.some.inj hpath
      refine ⟨.ok plugin, rfl, ?_⟩
      rw [numberAt_zero, alone_counter, hone]
      rfl
    | succ i =>
      rw [numberAt_succ, ← load_counter]
      exact ih hpath
  | @failed s head rest f os hone _ ih =>
    cases i with
    | zero =>
      obtain rfl := Option.some.inj hpath
      refine ⟨.error f, rfl, ?_⟩
      rw [numberAt_zero, alone_counter, hone]
      rfl
    | succ i =>
      rw [numberAt_succ, ← load_counter]
      exact ih hpath

/-- Each path has one note about its loading, in its place. -/
theorem notes (h : LoadsInTurn w s paths os) :
    (Plugin.loadAll w s paths).journal.events.filter isAboutLoading = os.map LoadOutcome.event := by
  induction h with
  | done => rfl
  | @loaded s path rest plugin os hone _ ih =>
    rw [Plugin.loadAll, hone, List.map_cons, ← ih]
    show ((load w s path).journal.events ++ _).filter isAboutLoading = _
    rw [List.filter_append, load_notes (o := .ok plugin) hone]
    rfl
  | @failed s path rest f os hone _ ih =>
    rw [Plugin.loadAll, hone, List.map_cons, ← ih, LoadOutcome.event, path_of_failed hone]
    show ((load w s path).journal.events ++ _).filter isAboutLoading = _
    rw [List.filter_append, load_notes (o := .error f) hone]
    rfl

end LoadsInTurn

/-- **A batch is loaded to its end exactly where each path is recoverable under the number that is
next at its turn; where it is not, what is raised there goes through.  At its end a batch gives the
modules and the messages of the others, both in the order of the paths, and one of the two for each
path.  What comes of a path is what comes of it alone under the number that is next; and under any
number under which it is imported as the same.  Each path is noted once, in its place, as loaded or
as failed.** -/
theorem loadAll_partitions (w : Workspace) (s : LoadState) (paths : List String) :
    ((∃ r, (loadAll w s paths).journal.outcome = .ok r) ↔
      ∀ (i : Nat) (path : String), paths[i]? = some path →
        Recoverable w (numberAt w s.modules.counter paths i) path) ∧
    (∀ f, (loadAll w s paths).journal.outcome = .error f → ∃ e : Escape, f = e.failure) ∧
    ∀ plugins errors, (loadAll w s paths).journal.outcome = .ok (plugins, errors) →
      ∃ os : List LoadOutcome,
        plugins = modulesOf os ∧ errors = (failuresOf os).map LoadFailure.message ∧
        plugins.length + errors.length = paths.length ∧ os.map LoadOutcome.path = paths ∧
        (∀ (i : Nat) (path : String), paths[i]? = some path → ∃ o, os[i]? = some o ∧
          (alone w (numberAt w s.modules.counter paths i) path).outcome = o.mapError .load ∧
          ∀ n, importFile w path (nameFor n path) =
              importFile w path (nameFor (numberAt w s.modules.counter paths i) path) →
            (alone w n path).outcome = o.mapError .load) ∧
        (loadAll w s paths).journal.events.filter isAboutLoading = os.map LoadOutcome.event := by
  refine ⟨?_, failsWith_iff.mp (loadAll_escapes w s paths), fun plugins errors h => ?_⟩
  · rw [← exists_loadsInTurn_iff]
    exact ⟨fun ⟨_, h⟩ => exists_loadsInTurn h, fun ⟨_, hos⟩ => ⟨_, hos.loadAll⟩⟩
  · obtain ⟨os, hos, rfl, rfl⟩ := loadAll_eq_ok_iff.mp h
    refine ⟨os, rfl, rfl, ?_, hos.map_path, fun i path hpath => ?_, hos.notes⟩
    · rw [List.length_map, length_modulesOf_add, ← List.length_map LoadOutcome.path, hos.map_path]
    · obtain ⟨o, ho, halone⟩ := hos.alone_at hpath
      refine ⟨o, ho, halone, fun n hsame => ?_⟩
      have hjournal : alone w n path = alone w (numberAt w s.modules.counter paths i) path :=
        load_journal (.fresh (numberAt w s.modules.counter paths i)) hsame
      rw [hjournal, halone]

theorem empty_answers : Module.empty.Answers := by
  have hnone : ∀ attr, ¬Module.empty.Names attr := by
    intro attr
    rw [Module.names_iff rfl rfl]
    exact List.not_mem_nil
  refine ⟨⟨⟨_, rfl⟩, ⟨_, rfl⟩, fun attr h => absurd h (hnone attr)⟩, ?_, ?_, ?_⟩
  · exact fun attr _ h => absurd h.1 (hnone attr)
  · exact fun attr _ _ h => absurd h.1 (hnone attr)
  · exact fun attr _ _ ⟨_, h, _⟩ => absurd h.1 (hnone attr)

/-- A batch with a module that cannot be imported and a path without a file is loaded to its end,
and one with a module that has let go of its name is not. -/
theorem loadAll_partitions_of_shelf :
    (∃ os : List LoadOutcome,
      (loadAll shelf (.fresh 3) ["b.py", "gone.py", "a_1.py"]).journal.outcome =
        .ok (modulesOf os, (failuresOf os).map LoadFailure.message) ∧
      (∃ o, os[0]? = some o ∧ ∀ n, (alone shelf n "b.py").outcome = o.mapError .load) ∧
      os.map LoadOutcome.path = ["b.py", "gone.py", "a_1.py"]) ∧
      ¬∃ r, (loadAll unnamedCrate (.fresh 0) ["q.py"]).journal.outcome = .ok r := by
  have hrecoverable : ∀ (i : Nat) (path : String), ["b.py", "gone.py", "a_1.py"][i]? = some path →
      Recoverable shelf (numberAt shelf 3 ["b.py", "gone.py", "a_1.py"] i) path := by
    intro i path hpath
    match i with
    | 0 =>
      obtain rfl : "b.py" = path := Option.some.inj hpath
      refine fun _ => ⟨fun raised h => ?_, fun m h => (nomatch h)⟩
      obtain rfl : Raised.exception "ValueError" "no" = raised := Except.error.inj h
      exact ⟨_, rfl⟩
    | 1 =>
      obtain rfl : "gone.py" = path := Option.some.inj hpath
      exact fun h => (nomatch h)
    | 2 =>
      obtain rfl : "a_1.py" = path := Option.some.inj hpath
      refine fun _ => ⟨fun raised h => (nomatch h), fun m h => ?_⟩
      obtain rfl : Module.empty = m := Except.ok.inj h
      exact empty_answers
  obtain ⟨hends, -, hparts⟩ := loadAll_partitions shelf (.fresh 3) ["b.py", "gone.py", "a_1.py"]
  obtain ⟨⟨plugins, errors⟩, hloads⟩ := hends.mpr hrecoverable
  obtain ⟨os, rfl, rfl, -, hpaths, hturn, -⟩ := hparts plugins errors hloads
  obtain ⟨o, ho, -, hany⟩ := hturn 0 "b.py" rfl
  refine ⟨⟨os, hloads, ⟨o, ho, fun n => hany n rfl⟩, hpaths⟩, fun hloaded => ?_⟩
  obtain ⟨hends', -⟩ := loadAll_partitions unnamedCrate (.fresh 0) ["q.py"]
  have hq := hends'.mp hloaded 0 "q.py" rfl
  exact unnamed_not_answers ((hq rfl).2 _ (unnamed_imported _))

end LintHost.Plugin
