/-
Analyzer modules, described by what they bind and what their analyzers do.

A module is a list of members that are bound one after the other; a later member replaces an
earlier one of its name.  Functions and callable objects carry a mark that makes them analyzers,
classes are analyzers when they descend from the base of all analyzers, and all else is passed
over.  What an analyzer does is a behaviour: it gives a plain value as it is, or it goes through a
list of actions and hands the items over in one of several ways.

A few names have a meaning of their own in a module: whoever lists its names or asks for one that is
not bound is answered by what they are bound to.  No member of a description binds any of them.
-/
import LintHost.Failure
import LintHost.Json.Basic

namespace LintHost.Plugin

/-- What an action does when its conditions hold. -/
inductive Effect where
  /-- Adds a finding; placeholders in its texts are filled in first. -/
  | emit (fields : Json)
  /-- Adds a value that is no finding. -/
  | junk (v : Json)
  | raise (e : Raised)
deriving Repr, Inhabited

/-- An effect and the conditions on the unit: how its path ends and what its source holds. -/
structure Action where
  ifPath : Option String
  ifSource : Option String
  effect : Effect
deriving Repr, Inhabited

/-- How the items are handed over: all at once, one by one while they are asked for, or not. -/
inductive Handover where
  | list
  | tuple
  | generator
  | nothing
deriving DecidableEq, Repr, Inhabited

/-- What an analyzer does with a unit. -/
inductive Body where
  | value (v : Json)
  | actions (steps : List Action) (handover : Handover)
  /-- Reports calls of print. -/
  | noPrint
  /-- Reports remarks about work to do. -/
  | todoRemarks
deriving Repr, Inhabited

/-- What an analyzer does, at once or by way of a coroutine. -/
structure Behaviour where
  deferred : Bool
  body : Body
deriving Repr, Inhabited

/-- How the marker is put to a function: on its own, called with nothing, or with a mark. -/
inductive Marking where
  | bare
  | called
  | named (mark : String)
deriving DecidableEq, Repr, Inhabited

/-- What a member binds its name to. -/
inductive MemberKind where
  /-- A marked function: the mark is the name given, or that of the function. -/
  | function (marking : Marking) (b : Behaviour)
  /-- A marked function without a name of its own. -/
  | lambda (marking : Marking) (b : Behaviour)
  /-- A marked object that can be called. -/
  | callableObject (mark : String) (b : Behaviour)
  /-- A marked object that cannot be called. -/
  | inertObject (mark : String)
  /-- A function without a mark. -/
  | plainFunction (b : Behaviour)
  /-- A class below what a name is bound to: below the base of all analyzers if no name is given. -/
  | analyzerClass (base : Option String) (id : Option String) (isAbstract : Bool)
      (initRaise : Option Raised) (b : Behaviour)
  /-- A class that is no analyzer. -/
  | plainClass
  /-- What another name is bound to. -/
  | alias (target : String)
  /-- Nothing: the name is taken away. -/
  | delete
deriving Repr, Inhabited

/-- A binding of a module. -/
structure Member where
  name : String
  kind : MemberKind
deriving Repr, Inhabited

/-- The names by which a module answers for itself. -/
def hookNames : List String := ["__dir__", "__getattr__", "__class__", "__dict__", "__bases__"]

/-- A module: what it binds, and how importing it fails if it does. -/
structure Script where
  members : List Member
  importRaise : Option Raised
  syntaxError : Bool
  /-- No member answers for the module. -/
  ordinary : ∀ m ∈ members, m.name ∉ hookNames := by decide
deriving Repr

/-- The module of an empty file. -/
def Script.empty : Script := ⟨[], none, false, by decide⟩

/-- The module of a file that cannot be read as code. -/
def Script.unreadable : Script := ⟨[], none, true, by decide⟩

instance : Inhabited Script := ⟨Script.empty⟩

end LintHost.Plugin
