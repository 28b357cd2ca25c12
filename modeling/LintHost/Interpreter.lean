/-
What lies below the program.

The program runs in an interpreter, which has room for so much and no more, and which runs the
modules that the program imports.  How much room there is depends on the stack that is left where
the program is called, and what a module does on what is written in it; the program has a say in
neither.  So both are given, and what is said of the program is said for every such interpreter.
The few calls by which the program itself gets to a recursion are not counted.

Running a module leaves the files, and the modules in memory, as they are, and a module gives the
same answer whenever it is asked; a module that reaches into the program itself is not looked at.
-/
import LintHost.Plugin.Module
import LintHost.Path

namespace LintHost

/-- How a file is read that is imported. -/
inductive FileKind where
  | text
  | compiled
  | library
deriving DecidableEq, Repr

/-- How much an interpreter has room for. -/
structure Limits where
  /-- The keys of a path along which mappings are laid over each other. -/
  mergeRoom : Nat
  /-- The collections inside each other in a document that is read. -/
  nestingRoom : Nat
  /-- The directories inside each other that are walked through, with the one at the start. -/
  walkRoom : Nat
  /-- The collections inside each other in a value that is shown. -/
  shownRoom : Nat
  /-- The digits of a whole number that is written, if there is a limit to them. -/
  digits : Option Nat
deriving DecidableEq, Repr, Inhabited

/-- What there is room for at least where the program is all that an interpreter runs. -/
def Limits.usual : Limits :=
  { mergeRoom := 900
    nestingRoom := 450
    walkRoom := 900
    shownRoom := 900
    digits := some 4300 }

/-- An interpreter: its limits, and the module that comes of running a file of these bytes, at this
path and under this name, or what is raised. -/
structure Interpreter extends Limits where
  execute : FileKind → String → Path → List UInt8 → Except Raised Plugin.Module
deriving Inhabited

/-- The interpreter to which every file that can be run is the module that lists nothing. -/
def Interpreter.bare : Interpreter := { Limits.usual with execute := fun _ _ _ _ => .ok .empty }

end LintHost
