/-
Structured data as reports write it and as finding scripts hold it.

Whole numbers and floating-point numbers are kept apart, and an object keeps its fields in order.
-/
import LintHost.Number.Binary64

namespace LintHost

/-- A tree of plain data. -/
inductive Json where
  | null
  | bool (b : Bool)
  | int (n : Int)
  | float (x : Binary64)
  | str (s : String)
  | arr (items : List Json)
  | obj (fields : List (String × Json))
deriving Inhabited, Repr

namespace Json

/-- The value of a field of an object. -/
def field? (name : String) : Json → Option Json
  | .obj fields => fields.lookup name
  | _ => none

/-- Puts a field: a name that is there keeps its place and takes the new value. -/
def putField (name : String) (v : Json) : List (String × Json) → List (String × Json)
  | [] => [(name, v)]
  | (k, old) :: rest => if k = name then (k, v) :: rest else (k, old) :: putField name v rest

end Json

end LintHost
