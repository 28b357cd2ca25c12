/-
The configuration of a run, put together from its layers.

The defaults are lowest; the user's own file in the home directory lies over them, and the
project's file, or the one named instead of it, lies on top.  A broken file of the user is noted
and passed over; a broken file of the project is a failure.  At the end each section has to be a
mapping and the analyzers a list.
-/
import LintHost.Config.Merge
import LintHost.Config.Sections
import LintHost.Target
import LintHost.Value.Display

namespace LintHost.Config

/-- The lowest layer. -/
def defaults : Entries :=
  [(.str "analyzers", .list []),
   (.str "targets", (TargetsConfig.toJson {}).toValue),
   (.str "engine", (EngineConfig.toJson {}).toValue),
   (.str "output", (OutputConfig.toJson {}).toValue)]

/-- The sections that have to be mappings. -/
def sections : List String := ["targets", "engine", "output"]

/-- The entries of a configuration file; an empty one has none. -/
def readLayer (w : Workspace) (p : Path) : Except Failure Entries := do
  match (← Target.readYaml w p).view with
  | .null => .ok []
  | .map entries => .ok entries
  | v => .error (.config (.notMapping p.toString v.kind))

/-- Whether a configuration file that fails in this way holds no configuration. -/
def isBrokenLayer : Failure → Bool
  | .yaml .malformed => true
  | .config _ => true
  | _ => false

/-- The user's own configuration file. -/
def userFile (w : Workspace) : Path := (w.homePath.child ".lintkit").child "config.yaml"

/-- The configuration file of a project: the one named, or else the one in its directory. -/
def projectFile (projectDir : String) (named : Option String) : Path :=
  match named with
  | some s => if s.isEmpty then (Path.ofString projectDir).child ".lintkit.yaml" else .ofString s
  | none => (Path.ofString projectDir).child ".lintkit.yaml"

/-- The user's layer, over the defaults. -/
def withUserLayer (w : Workspace) (base : Entries) : Journal Entries := do
  let p := userFile w
  if ← Journal.of (w.isFile p) then
    match readLayer w p with
    | .ok entries => Journal.of (layOver w.interpreter.mergeRoom base entries)
    | .error e =>
      if isBrokenLayer e then do
        Journal.note (.globalConfigInvalid p.toString)
        pure base
      else Journal.fail e
  else pure base

/-- The failure of a project's file as it is reported. -/
def projectFailure (p : Path) : Failure → Failure
  | .yaml .malformed => .config (.unparsable p.toString)
  | e => e

/-- The project's layer, over the others. -/
def withProjectLayer (w : Workspace) (p : Path) (base : Entries) : Except Failure Entries := do
  if ← w.isFile p then
    match readLayer w p with
    | .ok entries => layOver w.interpreter.mergeRoom base entries
    | .error e => .error (projectFailure p e)
  else .ok base

/-- Whether the value of a key is a mapping. -/
def isMapping (v : Option Value) : Bool :=
  match v.map Value.view with
  | some (.map _) => true
  | _ => false

/-- Whether the value of the analyzers is a list, or as good as absent. -/
def isListLike (v : Option Value) : Bool :=
  match v.map Value.view with
  | none | some (.list _) => true
  | some v => v.isEmptyLike

/-- What is wrong with a configuration, if anything is. -/
def problemOf (entries : Entries) : Option ConfigProblem :=
  match sections.find? fun s => !isMapping (Value.lookupName s entries) with
  | some s => some (.badSection s)
  | none => if isListLike (Value.lookupName "analyzers" entries) then none else some .analyzers

/-- The configuration of a project directory. -/
def load (w : Workspace) (projectDir : String) (named : Option String) : Journal Entries := do
  let base ← withUserLayer w defaults
  let entries ← Journal.of (withProjectLayer w (projectFile projectDir named) base)
  match problemOf entries with
  | some p => Journal.fail (.config p)
  | none => pure entries

/-- The analyzers that a configuration lists, as texts. -/
def listedAnalyzers (limits : Limits) (entries : Entries) : Except Failure (List String) :=
  match (Value.lookupName "analyzers" entries).map Value.view with
  | some (.list items) =>
    items.mapM fun v => (v.displayText? limits.digits limits.shownRoom).mapError .unwritable
  | _ => .ok []

/-- The entries of a section. -/
def sectionEntries (name : String) (entries : Entries) : Entries :=
  match (Value.lookupName name entries).map Value.view with
  | some (.map es) => es
  | _ => []

end LintHost.Config
