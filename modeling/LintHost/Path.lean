/-
Paths by name alone.

A path is a root and a list of names.  Reading a path drops empty names and single points and
keeps double points; two slashes at the front, and no more and no fewer than two, are a root of
their own.  `normalize` makes a path absolute and removes each double point together with the name
in front of it, by name alone and without a look at the files.
-/
import LintHost.Text.Search

namespace LintHost

/-- Where a path starts: at the working directory, or at one of the two roots. -/
inductive Root where
  | relative
  | slash
  | doubleSlash
deriving DecidableEq, Repr, Inhabited

/-- A path. -/
structure Path where
  root : Root
  names : List String
deriving DecidableEq, Repr, Inhabited

namespace Path

/-- The parts of a text between slashes. -/
def splitSlashes : List Char → List (List Char)
  | [] => [[]]
  | c :: rest =>
    if c = '/' then [] :: splitSlashes rest
    else
      match splitSlashes rest with
      | [] => [[c]]
      | p :: more => (c :: p) :: more

/-- The root that a text starts with. -/
def rootOf : List Char → Root
  | '/' :: '/' :: '/' :: _ => .slash
  | '/' :: '/' :: _ => .doubleSlash
  | '/' :: _ => .slash
  | _ => .relative

/-- Whether a part of a text is a name: not empty and not a single point. -/
def isName (p : List Char) : Bool := !p.isEmpty && p != ['.']

/-- The path that a text spells. -/
def ofString (s : String) : Path :=
  ⟨rootOf s.toList, ((splitSlashes s.toList).filter isName).map String.ofList⟩

/-- The text of a root. -/
def rootText : Root → List Char
  | .relative => []
  | .slash => ['/']
  | .doubleSlash => ['/', '/']

/-- Names with slashes between them. -/
def joinNames : List String → List Char
  | [] => []
  | [n] => n.toList
  | n :: rest => n.toList ++ '/' :: joinNames rest

/-- The spelling of a path; the working directory itself is a single point. -/
def toString (p : Path) : String :=
  if p.root = .relative && p.names.isEmpty then "."
  else String.ofList (rootText p.root ++ joinNames p.names)

instance : ToString Path := ⟨toString⟩

/-- The working directory itself. -/
def here : Path := ⟨.relative, []⟩

/-- The last name; empty for a root and for the working directory. -/
def name (p : Path) : String := p.names.getLast?.getD ""

/-- The path without its last name. -/
def parent (p : Path) : Path := ⟨p.root, p.names.dropLast⟩

/-- The last name without its last suffix. A name that starts or ends with its only point has
no suffix. -/
def stem (p : Path) : String :=
  let n := p.name.toList
  let tail := (n.reverse.takeWhile (· ≠ '.')).length
  let cut := n.length - tail - 1
  if tail < n.length && 0 < cut && 0 < tail then String.ofList (n.take cut) else p.name

/-- The path followed by another: an absolute one stands for itself. -/
def join (p q : Path) : Path :=
  if q.root = .relative then ⟨p.root, p.names ++ q.names⟩ else q

/-- The path followed by a name. -/
def child (p : Path) (n : String) : Path := ⟨p.root, p.names ++ [n]⟩

/-- The parts that patterns are matched against: the root counts as one. -/
def parts (p : Path) : List String :=
  match p.root with
  | .relative => p.names
  | r => String.ofList (rootText r) :: p.names

/-- The name of the directory above. -/
def up : String := ".."

/-- Removes double points together with the names in front of them; `done` holds the names so far,
the last one first. -/
def collapseOnto (done : List String) : List String → List String
  | [] => done.reverse
  | n :: rest =>
    if n = up then collapseOnto (done.drop 1) rest else collapseOnto (n :: done) rest

/-- The names below a root without double points. -/
def collapse (names : List String) : List String := collapseOnto [] names

/-- The absolute path without double points, seen from a working directory. -/
def normalize (cwd p : Path) : Path :=
  let q := if p.root = .relative then cwd.join p else p
  ⟨q.root, collapse q.names⟩

/-- The directory of a path and the directories around it, the nearest first. -/
def ancestors (p : Path) : List Path :=
  (List.range (p.names.length + 1)).map fun k => ⟨p.root, p.names.take (p.names.length - k)⟩

/-! ### Laws -/

theorem collapseOnto_clean (done names : List String) (hd : up ∉ done) :
    up ∉ collapseOnto done names := by
  induction names generalizing done with
  | nil => simpa [collapseOnto] using hd
  | cons n rest ih =>
    rw [collapseOnto]
    split
    · exact ih _ fun h => hd (List.mem_of_mem_drop h)
    · rename_i hn
      refine ih _ ?_
      simp only [List.mem_cons, not_or]
      exact ⟨fun h => hn h.symm, hd⟩

theorem collapseOnto_of_clean (done names : List String) (h : up ∉ names) :
    collapseOnto done names = done.reverse ++ names := by
  induction names generalizing done with
  | nil => simp [collapseOnto]
  | cons n rest ih =>
    have hn : n ≠ up := by rintro rfl; exact h (by simp)
    rw [collapseOnto, if_neg hn, ih _ fun hr => h (by simp [hr])]
    simp

theorem up_not_mem_collapse (names : List String) : up ∉ collapse names :=
  collapseOnto_clean [] names (by simp)

theorem collapse_of_clean {names : List String} (h : up ∉ names) : collapse names = names := by
  simp [collapse, collapseOnto_of_clean [] names h]

end Path

end LintHost
