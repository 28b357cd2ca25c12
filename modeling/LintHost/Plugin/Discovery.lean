/-
The entry points of a module.

The attributes of a module are looked at in the order of their names; what comes from elsewhere, or
was made under another name than the module has now, is passed over.  The marked callables come
first and the concrete classes of analyzers after them.  An instance of each class is made at once;
a class whose instance cannot be made gives a warning instead of an entry point.  Whatever else the
module raises while it is asked goes through.
-/
import LintHost.Plugin.Module
import LintHost.Journal

namespace LintHost

/-- What comes of asking, where whatever is raised goes through. -/
def Journal.asked {α : Type} (x : Except Escape α) : Journal α :=
  Journal.of (x.mapError Escape.failure)

namespace Plugin

/-- What the loader finds in a module: the entry points of marked callables, those of classes, and
the warnings about classes. -/
structure Found where
  marked : List EntryPoint
  made : List EntryPoint
  warnings : List String

namespace Found

def none : Found := ⟨[], [], []⟩

def addMarked (e : EntryPoint) (f : Found) : Found := { f with marked := e :: f.marked }

def addMade (e : EntryPoint) (f : Found) : Found := { f with made := e :: f.made }

def addWarning (text : String) (f : Found) : Found := { f with warnings := text :: f.warnings }

/-- The entry points: the marked callables and then the classes. -/
def entryPoints (f : Found) : List EntryPoint := f.marked ++ f.made

end Found

/-- The name of the entry point of a class: its identifier, or else its own name. -/
def ClassView.entryName (c : ClassView) (stem : String) : String :=
  stem ++ "." ++ (if c.id.isEmpty then c.name else c.id)

/-- The warning about a class of which no instance can be made. -/
def creationWarning (name path text : String) : String :=
  "Failed to create analyzer " ++ name ++ " from " ++ path ++ ": " ++ text

/-- What an attribute is, if it was made in the module, which is asked for its name each time. -/
def Module.own? (m : Module) (a : Attribute) : Except Escape (Option View) := do
  let home ← a.home
  let name ← m.name
  if home = name then some <$> a.view else .ok Option.none

/-- What an object adds to what is found. -/
def findObject (stem : String) : Option Analyze → Option String → Found → Found
  | some call, some mark => Found.addMarked ⟨stem ++ "." ++ mark, call⟩
  | _, _ => id

/-- What a class adds to what is found. -/
def findClass (stem path : String) (c : ClassView) : Journal (Found → Found) := do
  if c.isAnalyzer && !c.isAbstract then
    let name := c.entryName stem
    match c.make with
    | .ok analyze =>
      let call ← Journal.asked analyze
      pure (Found.addMade ⟨name, call⟩)
    | .error raised =>
      let (_, text) ← Journal.asked raised.told
      Journal.note (.analyzerInitFailed name text)
      pure (Found.addWarning (creationWarning name path text))
  else pure id

/-- What an attribute adds to what is found. -/
def Module.find (m : Module) (stem path : String) (a : Attribute) : Journal (Found → Found) := do
  match ← Journal.asked (m.own? a) with
  | some (.cls c) => findClass stem path c
  | some (.object call mark) => pure (findObject stem call mark)
  | Option.none => pure id

/-- What the attributes of a module add up to. -/
def Module.findAll (m : Module) (stem path : String) :
    List (String × Attribute) → Journal Found
  | [] => pure Found.none
  | (_, a) :: rest => do
    let add ← m.find stem path a
    let found ← m.findAll stem path rest
    pure (add found)

/-- What the loader finds in a module. -/
def discover (m : Module) (stem path : String) : Journal Found := do
  let members ← Journal.asked m.members
  m.findAll stem path members

end Plugin

end LintHost
