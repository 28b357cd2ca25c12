/-
What a target stands for.

A target is a source file, a project, a solution or a directory.  A project is a descriptor with a
list of sources, and a solution one with a list of projects; listed paths start at the descriptor's
directory.  `resolve` gives the sources of a target as absolute paths, each once and in order.
A path that leads nowhere, an unreadable descriptor and an entry that is no source are noted and
give nothing.
-/
import LintHost.Walk
import LintHost.Journal
import LintHost.Config.Sections
import LintHost.Text.Lowercase
import LintHost.Yaml.Document

namespace LintHost

/-- The items of a list, each at its first place only; those of `seen` are left out. -/
def dedupeAfter {α : Type} [DecidableEq α] (seen : List α) : List α → List α
  | [] => []
  | x :: rest =>
    if x ∈ seen then dedupeAfter seen rest else x :: dedupeAfter (x :: seen) rest

/-- The items of a list, each at its first place only. -/
def dedupe {α : Type} [DecidableEq α] (xs : List α) : List α := dedupeAfter [] xs

theorem mem_dedupeAfter {α : Type} [DecidableEq α] (seen xs : List α) (x : α) :
    x ∈ dedupeAfter seen xs ↔ x ∈ xs ∧ x ∉ seen := by
  induction xs generalizing seen with
  | nil => simp [dedupeAfter]
  | cons y rest ih =>
    rw [dedupeAfter]
    split
    · rename_i h
      rw [ih]
      constructor
      · rintro ⟨h1, h2⟩; exact ⟨by simp [h1], h2⟩
      · rintro ⟨h1, h2⟩
        rcases List.mem_cons.1 h1 with rfl | h1
        · exact absurd h h2
        · exact ⟨h1, h2⟩
    · rename_i h
      by_cases hx : x = y
      · subst hx; simp [h]
      · simp [ih, hx]

/-- The items of a list without repetitions are those of the list. -/
theorem mem_dedupe {α : Type} [DecidableEq α] (xs : List α) (x : α) :
    x ∈ dedupe xs ↔ x ∈ xs := by
  simp [dedupe, mem_dedupeAfter]

theorem nodup_dedupeAfter {α : Type} [DecidableEq α] (seen xs : List α) :
    (dedupeAfter seen xs).Nodup := by
  induction xs generalizing seen with
  | nil => simp [dedupeAfter]
  | cons y rest ih =>
    rw [dedupeAfter]
    split
    · exact ih seen
    · rw [List.nodup_cons, mem_dedupeAfter]
      exact ⟨fun h => h.2 (by simp), ih _⟩

/-- No item is repeated. -/
theorem nodup_dedupe {α : Type} [DecidableEq α] (xs : List α) : (dedupe xs).Nodup :=
  nodup_dedupeAfter [] xs

namespace Target

/-- Whether the name of a path ends with one of the suffixes, in any letter case. -/
def hasSuffix (p : Path) (suffixes : List String) : Bool :=
  let name := Text.lower p.name.toList
  suffixes.any fun s => Text.endsWith name (Text.lower s.toList)

def isSource (c : TargetsConfig) (p : Path) : Bool := hasSuffix p c.sourceExtensions

def isProject (c : TargetsConfig) (p : Path) : Bool := hasSuffix p c.projectSuffixes

def isSolution (c : TargetsConfig) (p : Path) : Bool := hasSuffix p c.solutionSuffixes

/-- The value of a configuration file. -/
def readYaml (w : Workspace) (p : Path) : Except Failure Value := do
  let text ← w.readText p
  (Yaml.valueOf w.interpreter.nestingRoom p.toString text).mapError .yaml

/-- Whether a descriptor that fails in this way counts as unreadable. -/
def isUnreadable : Failure → Bool
  | .os _ => true
  | .yaml .malformed => true
  | _ => false

/-- The texts of a list under a key of a mapping, if it is one. -/
def listedTexts (key : String) (v : Value) : Option (List String) :=
  match v.view with
  | .map entries =>
    match (Value.lookupName key entries).map Value.view with
    | some (.list items) =>
      some (items.filterMap fun v => match v with | .str s => some s | _ => none)
    | _ => none
  | _ => none

/-- The paths that a descriptor lists under a key, seen from its directory. -/
def listedPaths (w : Workspace) (p : Path) (key : String) : Journal (List Path) :=
  match readYaml w p with
  | .error e =>
    if isUnreadable e then do
      Journal.note (.descriptorUnreadable p.toString)
      pure []
    else Journal.fail e
  | .ok data =>
    match listedTexts key data with
    | none => do
      Journal.note (.descriptorMissingList p.toString key)
      pure []
    | some texts => pure (texts.map fun s => w.normalize (p.parent.join (Path.ofString s)))

/-- The entries of a project that are source files. -/
def keptSources (w : Workspace) (c : TargetsConfig) (project : Path) :
    List Path → Journal (List Path)
  | [] => pure []
  | p :: rest => do
    if !(← Journal.of (w.isFile p)) then
      Journal.note (.projectSourceMissing project.toString p.toString)
      keptSources w c project rest
    else if !isSource c p then
      Journal.note (.projectSourceIgnored project.toString p.toString)
      keptSources w c project rest
    else
      let more ← keptSources w c project rest
      pure (p :: more)

/-- The entries of a solution that are projects. -/
def keptProjects (w : Workspace) (c : TargetsConfig) (solution : Path) :
    List Path → Journal (List Path)
  | [] => pure []
  | p :: rest => do
    if !isProject c p then
      Journal.note (.solutionEntryNotAProject solution.toString p.toString)
      keptProjects w c solution rest
    else if !(← Journal.of (w.isFile p)) then
      Journal.note (.solutionProjectMissing solution.toString p.toString)
      keptProjects w c solution rest
    else
      let more ← keptProjects w c solution rest
      pure (p :: more)

/-- The sources of a project. -/
def projectSources (w : Workspace) (c : TargetsConfig) (project : Path) :
    Journal (List Path) := do
  let listed ← listedPaths w project "sources"
  let kept ← keptSources w c project listed
  pure (dedupe kept)

/-- The projects of a solution. -/
def solutionProjects (w : Workspace) (c : TargetsConfig) (solution : Path) :
    Journal (List Path) := do
  let listed ← listedPaths w solution "projects"
  let kept ← keptProjects w c solution listed
  pure (dedupe kept)

/-- The sources of projects, one project after the other. -/
def sourcesOf (w : Workspace) (c : TargetsConfig) : List Path → Journal (List Path)
  | [] => pure []
  | p :: rest => do
    let here ← projectSources w c p
    let more ← sourcesOf w c rest
    pure (here ++ more)

/-- The sources of a solution. -/
def solutionSources (w : Workspace) (c : TargetsConfig) (solution : Path) :
    Journal (List Path) := do
  let projects ← solutionProjects w c solution
  let sources ← sourcesOf w c projects
  pure (dedupe sources)

/-- The source files below a directory. -/
def directorySources (w : Workspace) (c : TargetsConfig) (dir : Path) :
    Except Failure (List Path) := do
  let files ← w.scan dir c.excludePatterns c.respectGitignore
  .ok (dedupe ((files.filter (isSource c)).map w.normalize))

/-- The sources of a target. -/
def resolve (w : Workspace) (c : TargetsConfig) (target : String) : Journal (List Path) := do
  let p := Path.ofString target
  if ← Journal.of (w.isDir p) then Journal.of (directorySources w c p)
  else if !(← Journal.of (w.isFile p)) then
    Journal.note (.targetNotFound target)
    pure []
  else if isSolution c p then solutionSources w c p
  else if isProject c p then projectSources w c p
  else if isSource c p then pure [w.normalize p]
  else
    Journal.note (.targetNotAnalyzable target)
    pure []

/-- The projects that a target refers to: itself, those of a solution, or those below a
directory. -/
def projectFiles (w : Workspace) (c : TargetsConfig) (target : String) :
    Journal (List Path) := do
  let p := Path.ofString target
  if ← Journal.of (w.isDir p) then
    let files ← Journal.of (w.scan p [] false)
    pure (dedupe ((files.filter (isProject c)).map w.normalize))
  else if !(← Journal.of (w.isFile p)) then pure []
  else if isSolution c p then solutionProjects w c p
  else if isProject c p then pure [w.normalize p]
  else pure []

/-- The least name of a list. -/
def leastName : List String → Option String
  | [] => none
  | n :: rest =>
    match leastName rest with
    | none => some n
    | some m => some (if m < n then m else n)

/-- The names of the projects that a directory holds. -/
def projectNames (w : Workspace) (c : TargetsConfig) (dir : Path) :
    Except Failure (List String) := do
  let names ← w.namesIn dir
  names.filterM fun n => do
    .ok ((← w.isFile (dir.child n)) && isProject c (dir.child n))

/-- The first project by name that a directory holds; none where it cannot be listed, or one of its
files cannot be looked at. -/
def projectIn (w : Workspace) (c : TargetsConfig) (dir : Path) :
    Except Failure (Option Path) :=
  match projectNames w c dir with
  | .error (.os _) => .ok none
  | .error e => .error e
  | .ok names => .ok ((leastName names).map dir.child)

/-- The first project that one of the directories holds. -/
def firstProject (w : Workspace) (c : TargetsConfig) : List Path → Except Failure (Option Path)
  | [] => .ok none
  | dir :: rest => do
    match ← projectIn w c dir with
    | some p => .ok (some p)
    | none => firstProject w c rest

/-- The nearest project of a unit: in its directory or in one around it. -/
def nearestProject (w : Workspace) (c : TargetsConfig) (unit : String) :
    Except Failure (Option Path) := do
  let start := w.normalize (Path.ofString unit)
  let dir := if ← w.isDir start then start else start.parent
  firstProject w c dir.ancestors

end Target

end LintHost
