/-
A module as the loader sees it.

An imported module is anything that lists names and has values for them.  Both may be up to the
module: it may list its names by a function of its own, and answer for names that it has not bound.
So listing the names, asking for a value and looking at what a value is can each raise something,
and nothing is known of a module but what comes of asking.  No module raises what the loader itself
raises for a module that cannot be loaded.

`Module.members` gathers the attributes of a module: the names are those it lists and those that its
bases add, where it has any; a name without a value is passed over, a name that comes up again is
left out, and what is left is put in the order of the names.
-/
import LintHost.Analyzer

namespace LintHost.Plugin

/-- What an analyzer does with a unit. -/
abbrev Analyze := Context → Response

/-- What tells one value from another: where a module has it from. -/
inductive Identity where
  /-- The object that a name stands for in every module. -/
  | ambient (name : String)
  /-- The value of a name that the module starts with. -/
  | own (name : String)
  /-- What a member of the module makes, by the number of members before it. -/
  | made (number : Nat)
deriving DecidableEq, Repr, Inhabited

/-- The only value that stands for nothing. -/
def nothing : Identity := .ambient "None"

/-- A class, as the loader asks about it. -/
structure ClassView where
  name : String
  /-- The identifier of its analyzers, which may be empty. -/
  id : String
  /-- Whether it stands below the base of all analyzers. -/
  isAnalyzer : Bool
  /-- Whether it leaves open what to do with a unit. -/
  isAbstract : Bool
  /-- What is raised when an instance is made, or else what the instance does with a unit; asking
  the instance for that may raise something of its own. -/
  make : Except Raised (Except Escape Analyze)

/-- An object, as the loader asks about it. -/
inductive View where
  | cls (c : ClassView)
  /-- Anything but a class: what it does when it is called, if it can be called, and the mark of
  analyzers, if it has one. -/
  | object (call : Option Analyze) (mark : Option String)

/-- The value of a name: its home, which is what it gives as the name of the module that made it,
nothing if it gives none; and what it is. -/
structure Attribute where
  home : Except Escape Identity
  view : Except Escape View

/-- A module that was imported. -/
structure Module where
  /-- The names that it lists. -/
  listed : Except Escape (List String)
  /-- The names that its bases add. -/
  inherited : Except Escape (List String)
  /-- The value of a name, if it has one. -/
  value : String → Except Escape (Option Attribute)
  /-- The name of the module itself. -/
  name : Except Escape Identity

/-- The name of a module's own name. -/
def ownName : String := "__name__"

/-- The module that lists nothing. -/
def Module.empty : Module := ⟨.ok [], .ok [], fun _ => .ok none, .ok (.own ownName)⟩

/-- The attributes of names, each name at the first place where it has one; those of `seen` are left
out. -/
def gather (value : String → Except Escape (Option Attribute)) (seen : List String) :
    List String → Except Escape (List (String × Attribute))
  | [] => .ok []
  | name :: rest => do
    match ← value name with
    | none => gather value seen rest
    | some a =>
      if name ∈ seen then gather value seen rest
      else
        let more ← gather value (name :: seen) rest
        .ok ((name, a) :: more)

/-- Attributes in the order of their names. -/
def inOrder (members : List (String × Attribute)) : List (String × Attribute) :=
  members.mergeSort fun a b => decide (a.1 ≤ b.1)

/-- The attributes of a module in the order of their names. -/
def Module.members (m : Module) : Except Escape (List (String × Attribute)) := do
  let listed ← m.listed
  let inherited ← m.inherited
  inOrder <$> gather m.value [] (listed ++ inherited)

end LintHost.Plugin
