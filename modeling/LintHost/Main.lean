/-
The command line.

The paths of the files that a run may look at come in on standard input, one on each line, as a
tool that lists files prints them.  They are read once, together with the user's own configuration,
and everything after that is `Command.run`; a file that is text and the description of a module may
be loaded as one.
-/
import LintHost.Command.Run
import LintHost.Plugin.Described
import LintHost.Plugin.Description

namespace LintHost.Command

/-- The description that the bytes of a file are. -/
def scriptOf (bytes : List UInt8) : Plugin.Script :=
  match Text.Utf8.decode? bytes with
  | some text => Plugin.scriptOfText text
  | none => Plugin.Script.unreadable

/-- The files at the paths of a list, seen from two directories. -/
def workspaceOf (cwd home : String) (files : List (String × List UInt8)) : Workspace :=
  let here := Path.normalize ⟨.slash, []⟩ (Path.ofString cwd)
  let start := ((FileTree.dir []).insert (.dir []) here.names)
  let root := files.foldl (fun t f =>
    t.insert (.file ⟨f.2⟩) (Path.normalize here (Path.ofString f.1)).names) start
  ⟨root, here.names, (Path.normalize here (Path.ofString home)).names,
    Interpreter.ofScripts .usual scriptOf⟩

/-- The lines of the input that are not empty. -/
partial def inputLines (input : IO.FS.Stream) : IO (List String) := do
  let line ← input.getLine
  if line.isEmpty then return []
  let path := String.ofList (line.toList.filter fun c => c != '\n' && c != '\r')
  let rest ← inputLines input
  return if path.isEmpty then rest else path :: rest

/-- The bytes of a file, if it can be read. -/
def bytesAt (path : String) : IO (Option (List UInt8)) := do
  try return some (← IO.FS.readBinFile path).toList
  catch _ => return none

/-- The files of a list that can be read. -/
def readAll (paths : List String) : IO (List (String × List UInt8)) :=
  paths.filterMapM fun p => do return (← bytesAt p).map fun bytes => (p, bytes)

/-- A text as it comes out where halves of characters cannot: as escapes. -/
def escaped (s : String) : String := String.ofList (Text.escapeHalves s.toList)

/-- Shows what a run leaves behind, and saves its report. -/
def present (o : Outcome) : IO UInt32 := do
  let stderr ← IO.getStderr
  for e in o.events do
    stderr.putStrLn (String.ofList e.toJson.line)
  stderr.putStr (escaped o.stderr)
  if let some f := o.escaped then
    stderr.putStrLn (f.message?.getD "the run was given up")
  (← IO.getStdout).putStr o.stdout
  if let some (path, text) := o.saved then
    IO.FS.writeFile path text
  return o.status.toUInt32

end LintHost.Command

open LintHost in
def main (args : List String) : IO UInt32 := do
  let cwd := (← IO.getEnv "PWD").getD "/"
  let home := (← IO.getEnv "HOME").getD "/"
  let listed ← Command.inputLines (← IO.getStdin)
  let files ← Command.readAll (listed ++ [home ++ "/.lintkit/config.yaml"])
  Command.present (Command.run (Command.workspaceOf cwd home files) ⟨0, []⟩ args)
