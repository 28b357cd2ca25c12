/-
What a file is imported as.

The ending of a file's name tells how it is read: as the text of a module, as a compiled module, or
as a library of the machine.  What comes of running it is up to the interpreter.
-/
import LintHost.Workspace
import LintHost.Text.Search

namespace LintHost.Plugin

/-- The endings of the names of files that can be imported. -/
def fileEndings : List (String × FileKind) :=
  [(".so", .library), (".py", .text), (".pyc", .compiled)]

/-- How a file of a name is read, if it can be imported. -/
def kindOfFile? (name : String) : Option FileKind :=
  (fileEndings.find? fun e => Text.endsWith name.toList e.1.toList).map (·.2)

/-- What is raised for a file that cannot be imported. -/
def notImportable : Raised := .exception "ImportError" "not an importable Python module"

/-- The module that a file is imported as under a name, or what importing it raises. -/
def importFile (w : Workspace) (path name : String) : Except Raised Module :=
  let p := Path.ofString path
  match kindOfFile? p.name, w.locateText path with
  | some kind, .ok (_, .file f) => w.interpreter.execute kind name (w.cwdPath.join p) f.bytes
  | _, _ => .error notImportable

end LintHost.Plugin
