/-
The files an operation sees, the directory it works in, and the interpreter that runs it.

Paths are handed over as values, or as raw texts where a trailing slash or an empty text matters.
Looking at a path that leads nowhere is no failure for the tests `isFile` and `isDir`; a name or
a whole path that is too long is one.  Reading fails with the cause and the path it was asked for.
-/
import LintHost.FileTree
import LintHost.Interpreter
import LintHost.Text.Portion

namespace LintHost

/-- A tree of files with the places of the working directory and of the home directory, and the
interpreter there. -/
structure Workspace where
  root : FileTree
  cwd : List String
  home : List String
  interpreter : Interpreter
deriving Inhabited

namespace Workspace

/-- The path of the working directory. -/
def cwdPath (w : Workspace) : Path := ⟨.slash, w.cwd⟩

/-- The path of the home directory. -/
def homePath (w : Workspace) : Path := ⟨.slash, w.home⟩

/-- Why a text can be no path, if it cannot: a half of a character has no bytes, unless it is
written for a byte of its own.  As halves count their stand-ins, which are characters themselves. -/
def pathFault? (s : String) : Option Failure :=
  if s.toList.any Text.isStray then some .halfInText
  else if s.toList.contains (Char.ofNat 0) then some .nulInPath
  else none

/-- What lies at the end of some names from a place. -/
def reach (w : Workspace) (here names : List String) : Except OsCause (List String × FileTree) :=
  match w.root.walk here names with
  | .error e => .error e
  | .ok there =>
    match w.root.find? there with
    | some t => .ok (there, t)
    | none => .error .missing

/-- The longest text that is followed as a path, in bytes. -/
def maxPathBytes : Nat := 4095

/-- Where a path leads. -/
def locate (w : Workspace) (p : Path) : Except OsCause (List String × FileTree) :=
  if Text.pathSize p.toString > maxPathBytes then .error .nameTooLong
  else w.reach (if p.root = .relative then w.cwd else []) p.names

/-- Where a text leads that is a path as it is written: a slash at its end asks for a directory,
and an empty text leads nowhere. -/
def locateText (w : Workspace) (s : String) : Except OsCause (List String × FileTree) :=
  if s.isEmpty then .error .missing
  else if Text.pathSize s > maxPathBytes then .error .nameTooLong
  else
    w.reach (if Path.rootOf s.toList = .relative then w.cwd else [])
      ((Path.splitSlashes s.toList).map String.ofList)

/-- A test of what a path leads to; it fails where a name is too long. -/
def test (w : Workspace) (p : Path) (holds : FileTree → Bool) : Except Failure Bool :=
  match pathFault? p.toString, w.locate p with
  | some _, _ => .ok false
  | none, .ok (_, t) => .ok (holds t)
  | none, .error .nameTooLong => .error (.os ⟨.nameTooLong, p.toString⟩)
  | none, .error _ => .ok false

/-- Whether a path leads to a file. -/
def isFile (w : Workspace) (p : Path) : Except Failure Bool := w.test p FileTree.isFile

/-- Whether a path leads to a directory. -/
def isDir (w : Workspace) (p : Path) : Except Failure Bool := w.test p FileTree.isDir

/-- Whether a text leads to a file; a text that cannot be followed does not. -/
def isFileText (w : Workspace) (s : String) : Bool :=
  match pathFault? s, w.locateText s with
  | none, .ok (_, t) => t.isFile
  | _, _ => false

/-- The file that a path leads to. -/
def openFile (w : Workspace) (p : Path) : Except Failure File :=
  match pathFault? p.toString, w.locate p with
  | some e, _ => .error e
  | none, .ok (_, .file f) => .ok f
  | none, .ok (_, .dir _) => .error (.os ⟨.isDirectory, p.toString⟩)
  | none, .error e => .error (.os ⟨e, p.toString⟩)

/-- The text of a file that has to be well-formed, as far as it is. -/
def readText (w : Workspace) (p : Path) : Except Failure Text.Portion := do
  let f ← w.openFile p
  .ok (Text.Portion.read f.bytes)

/-- The text of a source file, whatever its bytes. -/
def readSource (w : Workspace) (p : Path) : Except Failure (List Char) := do
  let f ← w.openFile p
  .ok (Text.unifyBreaks (Text.Utf8.decodeLossy f.bytes))

/-- The names in the directory that a path leads to. -/
def namesIn (w : Workspace) (p : Path) : Except Failure (List String) :=
  match pathFault? p.toString, w.locate p with
  | some e, _ => .error e
  | none, .ok (_, .dir es) => .ok (es.map (·.1))
  | none, .ok (_, .file _) => .error (.os ⟨.notDirectory, p.toString⟩)
  | none, .error e => .error (.os ⟨e, p.toString⟩)

/-- What a walk meets at any depth below the directory that a path leads to, and the failure where
it can go no further; nothing where the path leads to no directory. -/
def pathsBelow (w : Workspace) (p : Path) : Except Failure (List (Except Failure Path)) := do
  if ← w.isDir p then
    match w.locate p with
    | .ok (_, t) =>
      .ok ((t.visits w.interpreter.walkRoom).map (Except.map fun names =>
        ⟨p.root, p.names ++ names⟩))
    | .error _ => .ok []
  else .ok []

/-- The absolute path without double points, seen from the working directory. -/
def normalize (w : Workspace) (p : Path) : Path := Path.normalize w.cwdPath p

/-- Writes a file: its directory has to be there, and it may not be a directory itself. -/
def writeFile (w : Workspace) (p : Path) (bytes : List UInt8) : Except Failure Workspace :=
  match pathFault? p.toString, w.locate p with
  | some e, _ => .error e
  | none, .ok (_, .dir _) => .error (.os ⟨.isDirectory, p.toString⟩)
  | none, .ok (there, .file f) =>
    .ok { w with root := w.root.insert (.file { f with bytes := bytes }) there }
  | none, .error .missing =>
    match w.locate p.parent with
    | .ok (there, .dir _) =>
      if p.name = Path.up then .error (.os ⟨.missing, p.toString⟩)
      else .ok { w with root := w.root.insert (.file ⟨bytes⟩) (there ++ [p.name]) }
    | .ok (_, .file _) => .error (.os ⟨.notDirectory, p.toString⟩)
    | .error e => .error (.os ⟨e, p.toString⟩)
  | none, .error e => .error (.os ⟨e, p.toString⟩)

end Workspace

end LintHost
