/-
What an analyzer is to the host.

An entry point has a name and answers a unit, at once or by way of a coroutine that the host waits
for.  The outcome of that may be an exception, nothing, something that cannot be gone through, or
items.  Going through the items may raise too, after some of them were handed over.  An item is a
finding or, by mistake, anything else.
-/
import LintHost.Diagnostic.Basic
import LintHost.Failure

namespace LintHost

/-- What an analyzer sees of a unit. -/
structure Context where
  path : String
  source : String
  /-- The nearest project above the unit. -/
  project : Option String
deriving DecidableEq, Repr, Inhabited

/-- Something handed over by an analyzer. -/
inductive Item where
  | finding (d : Diagnostic)
  | other (kind : String)
deriving DecidableEq, Repr

/-- One step of going through what an analyzer gives. -/
inductive Delivery where
  | item (i : Item)
  | raise (e : Raised)
deriving DecidableEq, Repr

/-- What comes out of an analyzer for a unit. -/
inductive CallOutcome where
  | raised (e : Raised)
  | nothing
  | notIterable (kind : String)
  | items (steps : List Delivery)
deriving DecidableEq, Repr

/-- The answer of an analyzer to a unit: its outcome, or a coroutine that ends with it. -/
inductive Response where
  | now (o : CallOutcome)
  | later (o : CallOutcome)
deriving DecidableEq, Repr

/-- The outcome, once a coroutine has been waited for. -/
def Response.outcome : Response → CallOutcome
  | .now o => o
  | .later o => o

/-- A named analyzer. -/
structure EntryPoint where
  name : String
  call : Context → Response

end LintHost
