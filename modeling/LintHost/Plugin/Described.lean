/-
Described modules as modules.

A described module lists the names that it has bound, and gives for each what it is bound to.  It
has let go of its own name where that is not bound, and raises something when it is asked for it; in
all else it answers.  `Interpreter.ofScripts` is an interpreter that runs descriptions and nothing
else.
-/
import LintHost.Plugin.Binding
import LintHost.Interpreter

namespace LintHost

namespace Plugin

/-- What is raised for an attribute that is not there. -/
def missingAttribute : Escape := .exception "AttributeError"

/-- A class that is no analyzer: its instances do nothing with a unit. -/
def ClassView.plain (name : String) : ClassView :=
  ⟨name, "", false, false, .ok (.error missingAttribute)⟩

/-- A class of analyzers as the loader sees it. -/
def AnalyzerClass.view (c : AnalyzerClass) : ClassView :=
  { name := c.name
    id := c.id
    isAnalyzer := true
    isAbstract := c.isAbstract
    make :=
      match c.maker with
      | some maker => .error maker.raised
      | none => .ok (.ok c.behaviour.call) }

/-- An object as the loader sees it. -/
def Object.view : Object → View
  | .function f => .object (some f.behaviour.call) f.mark
  | .callable mark b => .object (some b.call) (some mark)
  | .analyzerClass c => .cls c.view
  | .analyzerBase => .cls baseClass.view
  | .plainClass c => .cls (.plain c.name)
  | .findings => .cls (.plain "Diagnostic")
  | .severities => .cls (.plain "Severity")
  | .ambient name .openClass | .ambient name .closedClass => .cls (.plain name)
  | .ambient _ .function | .ambient _ (.value _) | .marker | .other => .object none none

/-- A bound object as an attribute. What comes from elsewhere is no analyzer, wherever it is at
home. -/
def Bound.attribute (b : Bound) : Attribute := ⟨.ok (b.home.getD nothing), .ok b.object.view⟩

/-- Bindings as a module. -/
def Bindings.module (bs : Bindings) : Module where
  listed := .ok (bs.map Prod.fst)
  inherited := .ok []
  value name := .ok ((bs.lookup name).map Bound.attribute)
  name :=
    match bs.lookup ownName with
    | some b => .ok b.self
    | none => .error missingAttribute

/-- The module that comes of running a description in a file of a name. -/
def Script.module (s : Script) (fileName : String) : Except Raised Module :=
  Bindings.module <$> s.bindings fileName

end Plugin

/-- An interpreter that runs the texts of modules by their descriptions, and no other files. -/
def Interpreter.ofScripts (limits : Limits) (scriptOf : List UInt8 → Plugin.Script) :
    Interpreter :=
  { limits with
    execute := fun kind _ path bytes =>
      match kind with
      | .text => (scriptOf bytes).module path.name
      | .compiled | .library => .error (.exception "ImportError" "only texts are run") }

end LintHost
