/-
Loading analyzer modules.

Every module that is found takes the next number of a counter that all loaders share, and its name
is made of the number and the file's stem.  While a module is imported its name is in memory; it
stays there when the import succeeds, and the loader that loaded it registers it.  A loader lets
go of its modules when it is released.
-/
import LintHost.Plugin.Discovery
import LintHost.Plugin.Importable

namespace LintHost.Plugin

/-- The modules of the whole process: the next number, and the names in memory. -/
structure Modules where
  counter : Nat
  inMemory : List String
deriving DecidableEq, Repr, Inhabited

/-- A loader: the names of the modules it has registered, in the order of their loading. -/
structure Loader where
  registered : List String
deriving DecidableEq, Repr, Inhabited

/-- A module that was loaded. -/
structure Loaded where
  path : String
  entryPoints : List EntryPoint
  warnings : List String

/-- The state that loading changes. -/
structure LoadState where
  modules : Modules
  loader : Loader
deriving DecidableEq, Repr, Inhabited

/-- A result together with the state it leaves. -/
structure Step (α : Type) where
  state : LoadState
  journal : Journal α

/-- The name of a module. -/
def moduleName (n : Nat) (stem : String) : String :=
  "lintkit_plugin_" ++ String.ofList (Text.decimal n) ++ "_" ++ stem

/-- The state with a number taken. -/
def LoadState.next (s : LoadState) : LoadState :=
  { s with modules := { s.modules with counter := s.modules.counter + 1 } }

/-- The state with a name in memory. -/
def LoadState.remember (s : LoadState) (name : String) : LoadState :=
  { s with modules := { s.modules with inMemory := s.modules.inMemory ++ [name] } }

/-- The state with a name registered. -/
def LoadState.register (s : LoadState) (name : String) : LoadState :=
  { s with loader := ⟨s.loader.registered ++ [name]⟩ }

/-- Goes through an import that has taken its name. An interrupt leaves the name in memory. -/
def importModule (path name : String) (p : Path) (imported : Except Raised Module)
    (s : LoadState) : Step Loaded :=
  match imported with
  | .error (.interrupt kind) => ⟨s.remember name, Journal.fail (.interrupted kind)⟩
  | .error raised => ⟨s, do
      let (_, text) ← Journal.asked raised.told
      Journal.fail (.load ⟨path, .failed text⟩)⟩
  | .ok m =>
    ⟨(s.remember name).register name, do
      let found ← discover m p.stem p.toString
      Journal.note (.pluginLoaded path (found.entryPoints.map (·.name)))
      pure ⟨path, found.entryPoints, found.warnings⟩⟩

/-- Loads the module at a path. -/
def load (w : Workspace) (s : LoadState) (path : String) : Step Loaded :=
  if w.isFileText path then
    let p := Path.ofString path
    let name := moduleName s.modules.counter p.stem
    importModule path name p (importFile w path name) s.next
  else ⟨s, Journal.fail (.load ⟨path, .notFound⟩)⟩

/-- Loads the modules at several paths: those loaded, and the messages of the others. -/
def loadAll (w : Workspace) (s : LoadState) : List String → Step (List Loaded × List String)
  | [] => ⟨s, pure ([], [])⟩
  | path :: rest =>
    let one := load w s path
    match one.journal.outcome with
    | .ok plugin =>
      let more := loadAll w one.state rest
      ⟨more.state, ⟨one.journal.events ++ more.journal.events,
        more.journal.outcome.map fun r => (plugin :: r.1, r.2)⟩⟩
    | .error (.load f) =>
      let more := loadAll w one.state rest
      ⟨more.state, ⟨one.journal.events ++ .pluginLoadFailed path f.message :: more.journal.events,
        more.journal.outcome.map fun r => (r.1, f.message :: r.2)⟩⟩
    | .error e => ⟨one.state, ⟨one.journal.events, .error e⟩⟩

/-- Lets go of the modules of a loader. -/
def release (s : LoadState) : LoadState :=
  let kept := s.modules.inMemory.filter fun n => !s.loader.registered.contains n
  ⟨{ s.modules with inMemory := kept }, ⟨[]⟩⟩

/-- The entry points of modules, one module after the other. -/
def entryPointsOf (plugins : List Loaded) : List EntryPoint := plugins.flatMap (·.entryPoints)

end LintHost.Plugin
