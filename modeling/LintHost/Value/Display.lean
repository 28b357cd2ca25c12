/-
A value as a message shows it.

At the outermost level a text stands for itself; inside lists, sets and mappings it is quoted.
Days and moments show their fields when they stand inside another value.  A collection that comes up
again inside itself shows as dots between its brackets.  A whole number with more digits than are
written is not shown at all, nor are more collections inside each other than there is room for:
`displayText?` finds both.
-/
import LintHost.Value.Basic
import LintHost.Text.Digit
import LintHost.Text.Quoted
import LintHost.Number.Shortest

namespace LintHost

open LintHost.Text

/-- Words with commas between them. -/
def commaJoin (parts : List (List Char)) : List Char := ", ".toList.intercalate parts

/-- The fields of a day. -/
def Date.fields (d : Date) : List (List Char) := [decimal d.year, decimal d.month, decimal d.day]

/-- A length of time by its whole days and the seconds beyond them. -/
def spanText (minutes : Int) : List Char :=
  let days := minutes.fdiv 1440
  let seconds := minutes.fmod 1440 * 60
  let parts :=
    (if days = 0 then [] else ["days=".toList ++ integer days])
      ++ (if seconds = 0 then [] else ["seconds=".toList ++ integer seconds])
  "datetime.timedelta(".toList ++ (if parts.isEmpty then ['0'] else commaJoin parts) ++ [')']

/-- The fields of a moment: microseconds and seconds only where they are needed. -/
def Moment.fields (t : Moment) : List (List Char) :=
  t.date.fields ++ [decimal t.hour, decimal t.minute]
    ++ (if t.microsecond ≠ 0 then [decimal t.second, decimal t.microsecond]
        else if t.second ≠ 0 then [decimal t.second] else [])
    ++ (match t.offset with
        | none => []
        | some 0 => ["tzinfo=datetime.timezone.utc".toList]
        | some o => ["tzinfo=datetime.timezone(".toList ++ spanText o ++ [')']])

namespace Value

/-! ### Brackets -/

def listText (parts : List (List Char)) : List Char := '[' :: commaJoin parts ++ [']']

def pairText (first second : List Char) : List Char :=
  '(' :: first ++ ',' :: ' ' :: second ++ [')']

def setText (parts : List (List Char)) : List Char :=
  if parts.isEmpty then "set()".toList else '{' :: commaJoin parts ++ ['}']

def entryText (key v : List Char) : List Char := key ++ ':' :: ' ' :: v

def mapText (parts : List (List Char)) : List Char := '{' :: commaJoin parts ++ ['}']

/-- A collection inside itself. -/
def dots : Value → List Char
  | .map _ => "\x7b...\x7d".toList
  | .pair _ _ => "(...)".toList
  | _ => "[...]".toList

/-! ### Inside other values -/

/-- A scalar as it shows inside another value. -/
def atom : Value → List Char
  | .bool true => "True".toList
  | .bool false => "False".toList
  | .int n => integer n
  | .float x => x.display
  | .undefined _ => Binary64.nan.display
  | .str s => quoted s.toList
  | .date d => "datetime.date(".toList ++ commaJoin d.fields ++ [')']
  | .moment t => "datetime.datetime(".toList ++ commaJoin t.fields ++ [')']
  | .bytes bs => quotedBytes bs
  | _ => "None".toList

/-- A layer of a knot as it shows; `around` are the numbers of the layers it stands in. There is no
more of them than layers. -/
def layerText (layers : List Value) : Nat → List Nat → Nat → List Char
  | 0, _, _ => []
  | fuel + 1, around, n =>
    let part : Value → List Char
      | .tie m => layerText layers fuel (n :: around) m
      | v => v.atom
    let layer := layers.getD n .null
    if around.contains n then layer.dots
    else
      match layer with
      | .list items => listText (items.map part)
      | .pair a b => pairText (part a) (part b)
      | .set items => setText (items.map part)
      | .map entries => mapText (entries.map fun e => entryText (part e.1) (part e.2))
      | v => v.atom

mutual

/-- The value as it shows inside another. -/
def inner : Value → List Char
  | .list items => listText (inners items)
  | .pair a b => pairText (inner a) (inner b)
  | .set items => setText (inners items)
  | .map entries => mapText (innerEntries entries)
  | .knot layers n => layerText layers (layers.length + 1) [] n
  | v => v.atom

def inners : List Value → List (List Char)
  | [] => []
  | x :: rest => inner x :: inners rest

def innerEntries : List (Value × Value) → List (List Char)
  | [] => []
  | (k, v) :: rest => entryText (inner k) (inner v) :: innerEntries rest

end

/-- The value as it shows on its own. -/
def display : Value → List Char
  | .str s => s.toList
  | .date d => d.text
  | .moment t => t.text ' '
  | v => v.inner

/-- The value as it shows on its own, as a text. -/
def displayText (v : Value) : String := String.ofList v.display

/-! ### What keeps a value from being shown -/

section

variable (digits : Option Nat)

/-- What keeps a scalar from being shown, if anything does: a whole number may have too many
digits. -/
def atomObstacle? : Value → Option Obstacle
  | .int n => if Text.hasMoreDigits digits n then some .longNumber else none
  | _ => none

/-- What keeps a layer of a knot from being shown, if anything does; `around` are the numbers of the
layers it stands in. -/
def layerObstacle? (layers : List Value) : Nat → List Nat → Nat → Option Obstacle
  | 0, _, _ => some .tooDeep
  | depth + 1, around, n =>
    let part : Value → Option Obstacle
      | .tie m => layerObstacle? layers depth (n :: around) m
      | v => v.atomObstacle? digits
    if around.contains n then none
    else
      match layers.getD n .null with
      | .list items => items.findSome? part
      | .pair a b => (part a).or (part b)
      | .set items => items.findSome? part
      | .map entries => entries.findSome? fun e => (part e.1).or (part e.2)
      | v => v.atomObstacle? digits

mutual

/-- What keeps the value from being shown with so many levels left, if anything does: the first in
the order of its places. -/
def obstacle? : Nat → Value → Option Obstacle
  | 0, .list _ | 0, .pair _ _ | 0, .set _ | 0, .map _ => some .tooDeep
  | depth + 1, .list items => partsObstacle? depth items
  | depth + 1, .pair a b => (obstacle? depth a).or (obstacle? depth b)
  | depth + 1, .set items => partsObstacle? depth items
  | depth + 1, .map entries => entriesObstacle? depth entries
  | depth, .knot layers n => layerObstacle? digits layers depth [] n
  | _, v => v.atomObstacle? digits

def partsObstacle? (depth : Nat) : List Value → Option Obstacle
  | [] => none
  | x :: rest => (obstacle? depth x).or (partsObstacle? depth rest)

def entriesObstacle? (depth : Nat) : List (Value × Value) → Option Obstacle
  | [] => none
  | (k, v) :: rest =>
    ((obstacle? depth k).or (obstacle? depth v)).or (entriesObstacle? depth rest)

end

/-- The value as it shows on its own, if it can be shown with room for so many collections inside
each other. -/
def displayText? (room : Nat) (v : Value) : Except Obstacle String :=
  match v.obstacle? digits room with
  | some o => .error o
  | none => .ok v.displayText

end

end Value

end LintHost
