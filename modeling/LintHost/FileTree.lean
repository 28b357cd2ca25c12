/-
A tree of files, and where paths lead in it.

A directory holds entries by name and a file holds bytes.  `walk` follows the names of a path from a
directory: each step needs a directory to stand in, a name of at most 255 bytes and an entry of that
name, and double points lead one up.  `visits` goes through everything below a directory, as far as
there is room for directories inside each other.  `find?_append` says that what lies along two paths
in turn is what lies along them joined, and `dir_of_find?_snoc` that whatever has something below it
is a directory.
-/
import LintHost.Path
import LintHost.Failure
import LintHost.Text.PathBytes

namespace LintHost

/-- The content of a file. -/
structure File where
  bytes : List UInt8
deriving DecidableEq, Repr, Inhabited

/-- A file, or a directory with its entries. -/
inductive FileTree where
  | file (content : File)
  | dir (entries : List (String × FileTree))
deriving Inhabited

namespace FileTree

/-- The entries of a directory. -/
def entries : FileTree → List (String × FileTree)
  | .file _ => []
  | .dir es => es

def isDir : FileTree → Bool
  | .file _ => false
  | .dir _ => true

def isFile : FileTree → Bool
  | .file _ => true
  | .dir _ => false

/-- What lies along a list of names. -/
def find? (t : FileTree) : List String → Option FileTree
  | [] => some t
  | n :: rest =>
    match t.entries.lookup n with
    | some s => s.find? rest
    | none => none

/-- Puts something under a name. -/
def putEntry (n : String) (s : FileTree) : List (String × FileTree) → List (String × FileTree)
  | [] => [(n, s)]
  | (m, old) :: rest => if m = n then (m, s) :: rest else (m, old) :: putEntry n s rest

/-- Puts something at the end of a list of names; the directories on the way are made. -/
def insert (t : FileTree) (s : FileTree) : List String → FileTree
  | [] => s
  | n :: rest =>
    let below := (t.entries.lookup n).getD (.dir [])
    .dir (putEntry n (below.insert s rest) t.entries)

/-- Takes away what lies at the end of a list of names. -/
def erase (t : FileTree) : List String → FileTree
  | [] => t
  | [n] => .dir (t.entries.filter fun e => e.1 != n)
  | n :: rest =>
    match t.entries.lookup n with
    | some s => .dir (putEntry n (s.erase rest) t.entries)
    | none => t

mutual

/-- The names that lead to everything below a directory, in the order of a walk: what it holds
itself comes in front of what its directories hold. -/
def contents : FileTree → List (List String)
  | .file _ => []
  | .dir es => es.map (fun e => [e.1]) ++ contentsOf es

def contentsOf : List (String × FileTree) → List (List String)
  | [] => []
  | (n, t) :: rest => (contents t).map (n :: ·) ++ contentsOf rest

end

mutual

/-- What a walk meets that has room for so many directories inside each other: the names that lead
to everything below a directory, in the order of `contents`.  Of a directory for which there is no
room left it still meets what the directory holds itself, and then it can go no further. -/
def visits : Nat → FileTree → List (Except Failure (List String))
  | _, .file _ => []
  | 0, .dir es => es.map (fun e => .ok [e.1]) ++ [.error .walkTooDeep]
  | room + 1, .dir es => es.map (fun e => .ok [e.1]) ++ visitsOf room es

def visitsOf : Nat → List (String × FileTree) → List (Except Failure (List String))
  | _, [] => []
  | room, (n, t) :: rest => (visits room t).map (Except.map (n :: ·)) ++ visitsOf room rest

end

/-- The number of bytes of the longest name that a file system takes. -/
def maxNameBytes : Nat := 255

/-- Whether a name is too long for a file system. -/
def tooLong (n : String) : Bool := Text.pathSize n > maxNameBytes

/-- Follows names from a directory. Empty names and single points stay where they are. -/
def walk (root : FileTree) (here : List String) : List String → Except OsCause (List String)
  | [] => .ok here
  | n :: rest =>
    match root.find? here with
    | none => .error .missing
    | some (.file _) => .error .notDirectory
    | some (.dir es) =>
      if n = "" || n = "." then walk root here rest
      else if n = Path.up then walk root here.dropLast rest
      else if tooLong n then .error .nameTooLong
      else if (es.lookup n).isSome then walk root (here ++ [n]) rest
      else .error .missing

/-! ### Laws -/

theorem find?_append (t : FileTree) (p q : List String) :
    t.find? (p ++ q) = (t.find? p).bind (·.find? q) := by
  induction p generalizing t with
  | nil => simp [find?]
  | cons n rest ih =>
    simp only [List.cons_append, find?]
    cases t.entries.lookup n with
    | none => rfl
    | some s => exact ih s

/-- Whatever has something below it is a directory. -/
theorem dir_of_find?_snoc {t s : FileTree} {p : List String} {n : String}
    (h : t.find? (p ++ [n]) = some s) :
    ∃ es, t.find? p = some (.dir es) ∧ es.lookup n = some s := by
  rw [find?_append] at h
  obtain ⟨d, hd, hs⟩ := Option.bind_eq_some_iff.1 h
  cases d with
  | file f => simp [find?, entries] at hs
  | dir es =>
    refine ⟨es, hd, ?_⟩
    simp only [find?, entries] at hs
    cases hl : es.lookup n with
    | none => simp [hl] at hs
    | some s' => simp_all

end FileTree

end LintHost
