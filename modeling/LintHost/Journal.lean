/-
The journal of an operation: what it noted, and how it ended.

Operations note events as they go, and an event stays noted when the operation fails after it.
`Journal` is the monad of that: it puts the events of two operations one after the other and stops
at the first failure.
-/
import LintHost.Failure
import LintHost.Json.Basic

namespace LintHost

/-- How grave an event is. -/
inductive Level where
  | debug
  | info
  | warning
  | error
  | critical
deriving DecidableEq, Repr

namespace Level

/-- The number of a level: the higher, the graver. -/
def number : Level → Nat
  | .debug => 10
  | .info => 20
  | .warning => 30
  | .error => 40
  | .critical => 50

def name : Level → String
  | .debug => "debug"
  | .info => "info"
  | .warning => "warning"
  | .error => "error"
  | .critical => "critical"

/-- The capitals of a letter, for letters whose capitals are in the basic alphabet. -/
def capitals (c : Char) : List Char :=
  if c.toNat == 0x131 then ['I']
  else if c.toNat == 0x17F then ['S']
  else if c.toNat == 0xFB05 || c.toNat == 0xFB06 then ['S', 'T']
  else [c.toUpper]

/-- The words for levels, with the numbers they stand for. -/
def words : List (String × Nat) := [
  ("DEBUG", 10), ("INFO", 20), ("WARNING", 30), ("WARN", 30), ("ERROR", 40), ("CRITICAL", 50),
  ("FATAL", 50), ("NOTSET", 0)
]

/-- The words for parts of the log that are no levels. -/
def otherWords : List (String × LevelProblem) := [("BASIC_FORMAT", .layout), ("_STYLES", .styles)]

/-- The number of a level by its name in any letter case; for an unknown name, that of a
warning. -/
def numberOf (name : String) : Except Failure Nat :=
  let word := String.ofList (name.toList.flatMap capitals)
  match words.lookup word, otherWords.lookup word with
  | some n, _ => .ok n
  | none, some p => .error (.badLevel p)
  | none, none => .ok Level.warning.number

end Level

/-- What an operation notes. -/
inductive Event where
  | targetNotFound (target : String)
  | targetNotAnalyzable (target : String)
  | projectSourceMissing (project source : String)
  | projectSourceIgnored (project source : String)
  | solutionEntryNotAProject (solution entry : String)
  | solutionProjectMissing (solution project : String)
  | descriptorUnreadable (path : String)
  | descriptorMissingList (path key : String)
  | globalConfigInvalid (path : String)
  | pluginLoaded (path : String) (entryPoints : List String)
  | pluginLoadFailed (path error : String)
  | analyzerInitFailed (analyzer error : String)
  | unitUnreadable (unit error : String)
  | analyzerFailed (analyzer unit error : String)
  | noCompilationUnits (target : String)
  | analysisFinished (entryPoints units diagnostics errors : Nat)
  | runFinished (exitCode : Nat)
deriving DecidableEq, Repr

namespace Event

def level : Event → Level
  | .targetNotFound _ | .targetNotAnalyzable _ | .pluginLoaded _ _
  | .analysisFinished _ _ _ _ | .runFinished _ => .info
  | .analyzerInitFailed _ _ => .error
  | _ => .warning

def name : Event → String
  | .targetNotFound _ => "target_not_found"
  | .targetNotAnalyzable _ => "target_not_analyzable"
  | .projectSourceMissing _ _ => "project_source_missing"
  | .projectSourceIgnored _ _ => "project_source_ignored"
  | .solutionEntryNotAProject _ _ => "solution_entry_not_a_project"
  | .solutionProjectMissing _ _ => "solution_project_missing"
  | .descriptorUnreadable _ => "descriptor_unreadable"
  | .descriptorMissingList _ _ => "descriptor_missing_list"
  | .globalConfigInvalid _ => "global_config_invalid"
  | .pluginLoaded _ _ => "plugin_loaded"
  | .pluginLoadFailed _ _ => "plugin_load_failed"
  | .analyzerInitFailed _ _ => "analyzer_init_failed"
  | .unitUnreadable _ _ => "unit_unreadable"
  | .analyzerFailed _ _ _ => "analyzer_failed"
  | .noCompilationUnits _ => "no_compilation_units"
  | .analysisFinished _ _ _ _ => "analysis_finished"
  | .runFinished _ => "run_finished"

/-- What an event tells beside its name. -/
def fields : Event → List (String × Json)
  | .targetNotFound target => [("target", .str target)]
  | .targetNotAnalyzable target => [("target", .str target)]
  | .projectSourceMissing project source => [("project", .str project), ("source", .str source)]
  | .projectSourceIgnored project source => [("project", .str project), ("source", .str source)]
  | .solutionEntryNotAProject solution entry =>
    [("solution", .str solution), ("entry", .str entry)]
  | .solutionProjectMissing solution project =>
    [("solution", .str solution), ("project", .str project)]
  | .descriptorUnreadable path => [("path", .str path)]
  | .descriptorMissingList path key => [("path", .str path), ("key", .str key)]
  | .globalConfigInvalid path => [("path", .str path)]
  | .pluginLoaded path names => [("path", .str path), ("entry_points", .arr (names.map .str))]
  | .pluginLoadFailed path error => [("path", .str path), ("error", .str error)]
  | .analyzerInitFailed analyzer error => [("analyzer", .str analyzer), ("error", .str error)]
  | .unitUnreadable unit error => [("unit", .str unit), ("error", .str error)]
  | .analyzerFailed analyzer unit error =>
    [("analyzer", .str analyzer), ("unit", .str unit), ("error", .str error)]
  | .noCompilationUnits target => [("target", .str target)]
  | .analysisFinished entryPoints units diagnostics errors =>
    [("entry_points", .int entryPoints), ("units", .int units),
     ("diagnostics", .int diagnostics), ("errors", .int errors)]
  | .runFinished code => [("exit_code", .int code)]

/-- An event as plain data. -/
def toJson (e : Event) : Json :=
  .obj [("level", .str e.level.name), ("event", .str e.name), ("fields", .obj e.fields)]

end Event

/-- The events of an operation and its outcome. -/
structure Journal (α : Type) where
  events : List Event
  outcome : Except Failure α
deriving Repr

namespace Journal

/-- One operation after another; a failure ends it. -/
def andThen {α β : Type} (a : Journal α) (f : α → Journal β) : Journal β :=
  match a.outcome with
  | .ok x =>
    let b := f x
    ⟨a.events ++ b.events, b.outcome⟩
  | .error e => ⟨a.events, .error e⟩

instance : Monad Journal where
  pure x := ⟨[], .ok x⟩
  bind := andThen

/-- Notes an event. -/
def note (e : Event) : Journal Unit := ⟨[e], .ok ()⟩

/-- Fails. -/
def fail {α : Type} (e : Failure) : Journal α := ⟨[], .error e⟩

/-- An outcome without events. -/
def of {α : Type} (r : Except Failure α) : Journal α := ⟨[], r⟩

@[simp] theorem pure_events {α : Type} (x : α) : (pure x : Journal α).events = [] := rfl
@[simp] theorem pure_outcome {α : Type} (x : α) : (pure x : Journal α).outcome = .ok x := rfl
@[simp] theorem of_events {α : Type} (r : Except Failure α) : (of r).events = [] := rfl
@[simp] theorem of_outcome {α : Type} (r : Except Failure α) : (of r).outcome = r := rfl
@[simp] theorem note_outcome (e : Event) : (note e).outcome = .ok () := rfl
@[simp] theorem fail_outcome {α : Type} (e : Failure) :
    (fail e : Journal α).outcome = .error e := rfl

theorem bind_ok {α β : Type} (a : Journal α) (f : α → Journal β) (x : α)
    (h : a.outcome = .ok x) :
    (a >>= f) = ⟨a.events ++ (f x).events, (f x).outcome⟩ := by
  show andThen a f = _
  rw [andThen, h]

theorem bind_error {α β : Type} (a : Journal α) (f : α → Journal β) (e : Failure)
    (h : a.outcome = .error e) : (a >>= f) = ⟨a.events, .error e⟩ := by
  show andThen a f = _
  rw [andThen, h]

/-- The outcome of two operations in turn does not depend on what they noted. -/
theorem bind_outcome {α β : Type} (a : Journal α) (f : α → Journal β) :
    (a >>= f).outcome = a.outcome >>= fun x => (f x).outcome := by
  cases h : a.outcome with
  | ok x => rw [bind_ok a f x h]; rfl
  | error e => rw [bind_error a f e h]; rfl

theorem bind_events {α β : Type} (a : Journal α) (f : α → Journal β) (x : α)
    (h : a.outcome = .ok x) : (a >>= f).events = a.events ++ (f x).events := by
  rw [bind_ok a f x h]

/-- An operation behind a note notes the same after it. -/
theorem note_events {α : Type} (e : Event) (a : Journal α) :
    (do note e; a).events = e :: a.events :=
  bind_events _ _ () rfl

/-- Changing the result of an operation notes nothing. -/
theorem bind_pure_events {α β : Type} (a : Journal α) (g : α → β) :
    (a >>= fun x => pure (g x)).events = a.events := by
  cases h : a.outcome with
  | ok x => rw [bind_events _ _ x h, pure_events, List.append_nil]
  | error e => rw [bind_error _ _ e h]

/-! ### The monad laws -/

theorem pure_bind {α β : Type} (x : α) (f : α → Journal β) : (pure x >>= f) = f x := by
  rw [bind_ok _ _ x rfl]
  simp

theorem bind_pure {α : Type} (a : Journal α) : (a >>= pure) = a := by
  cases h : a.outcome with
  | ok x => rw [bind_ok _ _ x h]; cases a; simp_all
  | error e => rw [bind_error _ _ e h]; cases a; simp_all

theorem bind_assoc {α β γ : Type} (a : Journal α) (f : α → Journal β) (g : β → Journal γ) :
    (a >>= f >>= g) = (a >>= fun x => f x >>= g) := by
  cases h : a.outcome with
  | error e => rw [bind_error _ _ e h, bind_error _ _ e rfl, bind_error _ _ e h]
  | ok x =>
    rw [bind_ok _ _ x h, bind_ok a _ x h]
    cases h' : (f x).outcome with
    | error e => rw [bind_error _ _ e rfl, bind_error _ _ e h']
    | ok y => rw [bind_ok _ _ y rfl, bind_ok _ _ y h']; simp

instance : LawfulMonad Journal :=
  LawfulMonad.mk' Journal bind_pure pure_bind bind_assoc

end Journal

end LintHost
