/-
One layer of configuration laid over another.

Where both layers hold a mapping under a key, the two are laid over each other in turn; any other
value of the upper layer replaces the lower one's.  The keys of the lower layer keep their places
and spellings, and new keys come after them.  Each of the mappings that are laid over others takes
some of the room that is left; where a path has more keys than there is room for, as where mappings
hold themselves on both sides, `layOver` fails.
-/
import LintHost.Failure

namespace LintHost.Config

open LintHost.Value

/-- The entries of a configuration. -/
abbrev Entries := List (Value × Value)

/-- A layer of a knot laid over the value below it. -/
def overlayLayer (layers : List Value) : Nat → Value → Nat → Value
  | 0, _, n => .knot layers n
  | fuel + 1, below, n =>
    match below.view, layers.getD n .null with
    | .map base, .map entries =>
      .map (entries.foldl (fun es e =>
        let v := match e.2, lookup e.1 es with
          | .tie m, some old => overlayLayer layers fuel old m
          | v, _ => loosen layers v
        put e.1 v es) base)
    | _, _ => .knot layers n

/-- Whether a path of more keys than there is room for leads through mappings of both when a layer
of a knot is laid over a value: through mappings of both but for its last key. -/
def layerIsTooDeep (layers : List Value) : Nat → Value → Nat → Bool
  | room, below, n =>
    match below.view, layers.getD n .null with
    | .map base, .map entries =>
      match room with
      | 0 => !entries.isEmpty
      | room + 1 => entries.any fun e =>
        match e.2, lookup e.1 base with
        | .tie m, some old => layerIsTooDeep layers room old m
        | _, _ => false
    | _, _ => false

section

variable (room : Nat)

mutual

/-- A value laid over the one below it, if there is one. -/
def overlay (below : Option Value) : Value → Value
  | .map entries =>
    match below.map view with
    | some (.map base) => .map (merge base entries)
    | _ => .map entries
  | .knot layers n =>
    match below with
    | some old => overlayLayer layers (room + 1) old n
    | none => .knot layers n
  | v => v

/-- Entries laid over others. -/
def merge (base : Entries) : Entries → Entries
  | [] => base
  | (k, v) :: rest => merge (put k (overlay (lookup k base) v) base) rest

end

end

mutual

/-- Whether a path of more keys than there is room for leads through mappings of both when a value
is laid over the one below it. -/
def overlayIsTooDeep (room : Nat) (below : Option Value) : Value → Bool
  | .map entries =>
    match below.map view with
    | some (.map base) => isTooDeep room base entries
    | _ => false
  | .knot layers n => below.any fun old => layerIsTooDeep layers room old n
  | _ => false

/-- Whether a path of more keys than there is room for leads through mappings of both when entries
are laid over entries. -/
def isTooDeep (room : Nat) (base : Entries) : Entries → Bool
  | [] => false
  | (k, v) :: rest =>
    match room with
    | 0 => true
    | less + 1 => overlayIsTooDeep less (lookup k base) v || isTooDeep room base rest

end

/-- Entries laid over others, unless that goes too deep. -/
def layOver (room : Nat) (base upper : Entries) : Except Failure Entries :=
  if isTooDeep room base upper then .error .mergeTooDeep else .ok (merge room base upper)

/-- A value laid over another as a whole. Only a mapping can be laid over a mapping; over a list
only one without entries can, and it changes nothing. -/
def mergeValues (room : Nat) (base upper : Value) : Except Failure Value :=
  match base.view, upper.view with
  | .map entries, .map more => .map <$> layOver room entries more
  | .list items, .map [] => .ok (.list items)
  | .list _, .map _ => .error .keyInList
  | _, _ => .error .notMergeable

theorem layOver_nil (room : Nat) (base : Entries) : layOver room base [] = .ok base := by
  simp [layOver, isTooDeep, merge]

end LintHost.Config
