/-
Values of configuration files and descriptors.

Beyond plain data there are days and moments, byte strings, sets, and pairs of an ordered
mapping.  A mapping is a list of entries in order, and any scalar may be a key.  Keys are compared
as values: numbers and truth values of one numeric value are one key.  The not-a-number that has a
word of its own is one key wherever it stands; any other is a key apart, told by where it was
written.  `put` keeps the place and the spelling of a key that is there.

A collection may hold itself.  Collections that do are layers of a knot: each layer is a collection
whose parts are scalars and ties, and a tie names a layer by its number.  `view` shows the outermost
layer of such a value with its parts as values of their own; every other value is its own view.
-/
import LintHost.Json.Basic
import LintHost.Value.Calendar

namespace LintHost

/-- Where a value was written: the file, and the number of the node in it. -/
structure Origin where
  file : String
  node : Nat
deriving DecidableEq, Repr, Inhabited

/-- A value of a configuration file. -/
inductive Value where
  | null
  | bool (b : Bool)
  | int (n : Int)
  | float (x : Binary64)
  /-- A not-a-number that is no other one. -/
  | undefined (origin : Origin)
  | str (s : String)
  | date (d : Date)
  | moment (t : Moment)
  | bytes (bs : List UInt8)
  | list (items : List Value)
  | pair (first second : Value)
  | set (items : List Value)
  | map (entries : List (Value × Value))
  /-- The collection that a layer of a knot stands for. -/
  | knot (layers : List Value) (number : Nat)
  /-- Inside a layer: the collection of another layer, or of the same. -/
  | tie (number : Nat)
deriving Inhabited, Repr

/-- Why a value is not shown or written out. -/
inductive Obstacle where
  /-- A whole number has too many digits. -/
  | longNumber
  /-- Too many collections stand inside each other, as in a value that holds itself. -/
  | tooDeep
deriving DecidableEq, Repr

namespace Value

/-- A part of a layer as a value of its own. -/
def loosen (layers : List Value) : Value → Value
  | .tie n => .knot layers n
  | v => v

/-- A layer with its parts as values of their own. -/
def loosenParts (layers : List Value) : Value → Value
  | .list items => .list (items.map (loosen layers))
  | .pair a b => .pair (loosen layers a) (loosen layers b)
  | .set items => .set (items.map (loosen layers))
  | .map entries => .map (entries.map fun e => (e.1, loosen layers e.2))
  | v => v

/-- The value with its outermost collection in the open. -/
def view : Value → Value
  | .knot layers n => loosenParts layers (layers.getD n .null)
  | v => v

/-- The name of the value's kind, as messages say it. -/
def kind (v : Value) : String :=
  match v.view with
  | .null => "NoneType"
  | .bool _ => "bool"
  | .int _ => "int"
  | .float _ | .undefined _ => "float"
  | .str _ => "str"
  | .date _ => "date"
  | .moment _ => "datetime"
  | .bytes _ => "bytes"
  | .list _ => "list"
  | .pair _ _ => "tuple"
  | .set _ => "set"
  | .map _ | .knot _ _ | .tie _ => "dict"

/-- A number or truth value by its numeric value: whole, or else a floating-point number. -/
def number? : Value → Option (Int ⊕ Binary64)
  | .bool b => some (.inl (if b then 1 else 0))
  | .int n => some (.inl n)
  | .float x =>
    match x.toInt? with
    | some n => some (.inl n)
    | none => some (.inr x)
  | _ => none

/-- Whether two values are one key. -/
def sameKey (a b : Value) : Bool :=
  match a, b with
  | .null, .null => true
  | .str s, .str t => s == t
  | .date d, .date e => d == e
  | .moment s, .moment t => s.same t
  | .bytes s, .bytes t => s == t
  | .float .nan, .float .nan => true
  | .undefined o, .undefined p => o == p
  | a, b =>
    match a.number?, b.number? with
    | some (.inl n), some (.inl m) => n == m
    | some (.inr x), some (.inr y) => x.sameValue y
    | _, _ => false

/-- Whether the value counts as absent where a default is taken for an absent value. -/
def isEmptyLike (v : Value) : Bool :=
  match v.view with
  | .null => true
  | .bool b => !b
  | .int n => n == 0
  | .float x => x.sameValue (Binary64.zero false)
  | .str s => s.isEmpty
  | .bytes bs => bs.isEmpty
  | .list items => items.isEmpty
  | .set items => items.isEmpty
  | .map entries => entries.isEmpty
  | .undefined _ | .date _ | .moment _ | .pair _ _ | .knot _ _ | .tie _ => false

/-- The value of a key. -/
def lookup (key : Value) : List (Value × Value) → Option Value
  | [] => none
  | (k, v) :: rest => if sameKey k key then some v else lookup key rest

/-- The value of a key that is a text. -/
def lookupName (name : String) (entries : List (Value × Value)) : Option Value :=
  lookup (.str name) entries

/-- Gives a key a value; a key that is there keeps its place and its spelling. -/
def put (key v : Value) : List (Value × Value) → List (Value × Value)
  | [] => [(key, v)]
  | (k, old) :: rest => if sameKey k key then (k, v) :: rest else (k, old) :: put key v rest

/-- Adds an element to a set. -/
def insert (x : Value) (items : List Value) : List Value :=
  if items.any (sameKey · x) then items else items ++ [x]

end Value

mutual

/-- Plain data as a value. -/
def Json.toValue : Json → Value
  | .null => .null
  | .bool b => .bool b
  | .int n => .int n
  | .float x => .float x
  | .str s => .str s
  | .arr items => .list (Json.toValues items)
  | .obj fields => .map (Json.toEntries fields)

def Json.toValues : List Json → List Value
  | [] => []
  | x :: rest => x.toValue :: Json.toValues rest

def Json.toEntries : List (String × Json) → List (Value × Value)
  | [] => []
  | (k, x) :: rest => (.str k, x.toValue) :: Json.toEntries rest

end

/-- Plain data is in the open as a whole. -/
@[simp] theorem Value.view_toValue (j : Json) : j.toValue.view = j.toValue := by
  cases j <;> rfl

end LintHost
