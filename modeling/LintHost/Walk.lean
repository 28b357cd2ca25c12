/-
The files below a directory.

A walk lists every file at any depth, hidden ones too, in the order of their whole paths, and
leaves out those that the directory's own rules ignore and those that match a pattern.  A
directory that is not there has no files.  Whatever a walk meets it looks at, so a path that is too
long to be followed ends it, as does a directory for which there is no room among those around it.
-/
import LintHost.Workspace
import LintHost.Glob
import LintHost.Ignore

namespace LintHost

/-- The name of the file that holds rules for ignored files. -/
def ignoreFileName : String := ".gitignore"

namespace Workspace

/-- The rules for ignored files that a directory holds. They are read line by line, so that a faulty
rule shows before what is no text behind it. -/
def ignoreRules (w : Workspace) (base : Path) : Except Failure (List Ignore.Rule) := do
  let file := base.child ignoreFileName
  if ← w.isFile file then
    let portion ← w.readText file
    let rules ← (Ignore.rulesOf portion.wholeLines).mapError .ignoreRule
    if portion.isWhole then .ok rules else .error .undecodable
  else .ok []

/-- The spelling of a path below a directory. -/
def spellingBelow (base p : Path) : List Char :=
  Path.joinNames (p.names.drop base.names.length)

/-- Whether any of the patterns matches; a pattern without parts fails when it is tried. -/
def excluded (p : Path) : List String → Except Failure Bool
  | [] => .ok false
  | pattern :: rest =>
    if Glob.isBlankPattern pattern then .error .emptyPattern
    else if Glob.matchesPath pattern p then .ok true
    else excluded p rest

/-- Whether the rules and the patterns leave a file. -/
def leaves (rules : List Ignore.Rule) (patterns : List String) (base p : Path) :
    Except Failure Bool := do
  let ignored ←
    if rules.isEmpty then .ok false
    else (Ignore.ignores rules (spellingBelow base p)).mapError .ignoreRule
  if ignored then .ok false else .ok !(← excluded p patterns)

/-- Whether a walk keeps what it meets: a file that the rules and the patterns leave. -/
def keeps (w : Workspace) (rules : List Ignore.Rule) (patterns : List String) (base p : Path) :
    Except Failure Bool := do
  if ← w.isFile p then leaves rules patterns base p else .ok false

/-- What is kept of what a walk meets, one after the other, up to where it can go no further. -/
def keepFrom {α : Type} (keeps : α → Except Failure Bool) :
    List (Except Failure α) → Except Failure (List α)
  | [] => .ok []
  | met :: rest => do
    let x ← met
    let isKept ← keeps x
    let more ← keepFrom keeps rest
    .ok (if isKept then x :: more else more)

/-- The paths in the order of their spellings. -/
def sortPaths (ps : List Path) : List Path :=
  ps.mergeSort fun a b => decide (a.toString ≤ b.toString)

/-- The files below a directory that the rules and the patterns leave, in order. -/
def scan (w : Workspace) (base : Path) (patterns : List String) (respectIgnore : Bool) :
    Except Failure (List Path) := do
  let rules ← if respectIgnore then w.ignoreRules base else .ok []
  let found ← w.pathsBelow base
  let kept ← keepFrom (w.keeps rules patterns base) found
  .ok (sortPaths kept)

end Workspace

end LintHost
