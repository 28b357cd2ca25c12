/-
The sections of a configuration.

Each section is a record with a default for every field; data for a section is checked field by
field, and unknown fields are passed over.
-/
import LintHost.Check

namespace LintHost

/-- What counts as a source file, a project or a solution, and what a walk leaves out. -/
structure TargetsConfig where
  sourceExtensions : List String := [".py"]
  projectSuffixes : List String := [".lkproj"]
  solutionSuffixes : List String := [".lksln"]
  excludePatterns : List String := []
  respectGitignore : Bool := false
deriving DecidableEq, Repr, Inhabited

/-- How the analyzers are run. -/
structure EngineConfig where
  jobs : Int := 1
deriving DecidableEq, Repr, Inhabited

/-- How the report is written. -/
structure OutputConfig where
  format : String := "text"
deriving DecidableEq, Repr, Inhabited

/-- A list of texts. -/
def Check.strings : Value → Check (List String) := Check.list Check.str

/-- A whole number that is at least one. -/
def Check.positive (v : Value) : Check Int :=
  match Check.int v with
  | .ok n => if n < 1 then .fault .tooSmall else .ok n
  | .bad ps => .bad ps

def TargetsConfig.checkFields (entries : List (Value × Value)) : Check TargetsConfig :=
  let default : TargetsConfig := {}
  TargetsConfig.mk
  <$> Check.withDefault "source_extensions" default.sourceExtensions Check.strings entries
  <*> Check.withDefault "project_suffixes" default.projectSuffixes Check.strings entries
  <*> Check.withDefault "solution_suffixes" default.solutionSuffixes Check.strings entries
  <*> Check.withDefault "exclude_patterns" default.excludePatterns Check.strings entries
  <*> Check.withDefault "respect_gitignore" default.respectGitignore Check.bool entries

def EngineConfig.checkFields (entries : List (Value × Value)) : Check EngineConfig :=
  EngineConfig.mk <$> Check.withDefault "jobs" 1 Check.positive entries

def OutputConfig.checkFields (entries : List (Value × Value)) : Check OutputConfig :=
  OutputConfig.mk <$> Check.withDefault "format" "text" Check.str entries

/-! ### As plain data -/

def TargetsConfig.toJson (c : TargetsConfig) : Json :=
  .obj [("source_extensions", .arr (c.sourceExtensions.map .str)),
    ("project_suffixes", .arr (c.projectSuffixes.map .str)),
    ("solution_suffixes", .arr (c.solutionSuffixes.map .str)),
    ("exclude_patterns", .arr (c.excludePatterns.map .str)),
    ("respect_gitignore", .bool c.respectGitignore)]

def EngineConfig.toJson (c : EngineConfig) : Json := .obj [("jobs", .int c.jobs)]

def OutputConfig.toJson (c : OutputConfig) : Json := .obj [("format", .str c.format)]

end LintHost
