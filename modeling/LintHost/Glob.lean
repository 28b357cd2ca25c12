/-
Patterns of shell style on paths.

A pattern is split at its slashes and matched against the parts of a path from the right, part by
part.  In a part a star stands for any run of characters, a question mark for one, and brackets
for one of a class; everything else is itself, in its own letter case.  A relative pattern may
have fewer parts than the path; an absolute one has to have as many.
-/
import LintHost.Path

namespace LintHost.Glob

/-- An inclusive range of characters. -/
structure Range where
  low : Char
  high : Char
deriving DecidableEq, Repr

/-- A mark of a pattern part. -/
inductive Mark where
  | run
  | one
  | char (c : Char)
  | cls (negated : Bool) (ranges : List Range)
deriving DecidableEq, Repr

def Range.holds (r : Range) (c : Char) : Bool := r.low ≤ c && c ≤ r.high

/-- A mark at the front, if it is there, and what follows it. -/
def leading (mark : Char) : List Char → List Char × List Char
  | [] => ([], [])
  | c :: rest => if c = mark then ([c], rest) else ([], c :: rest)

/-- What stands between brackets, and what follows them; a closing bracket that comes first is
part of the class. -/
def classBody (s : List Char) : Option (List Char × List Char) :=
  let bang := leading '!' s
  let first := leading ']' bang.2
  match first.2.dropWhile (· ≠ ']') with
  | [] => none
  | _ :: rest => some (bang.1 ++ first.1 ++ first.2.takeWhile (· ≠ ']'), rest)

/-- Cuts a class at the dashes that make ranges: none of the first `skip` characters, and none of
the two after a cut. A dash at the very end belongs to the piece before it. -/
def cutAtDashes : Nat → Nat → List Char → List (List Char)
  | 0, _, s => [s]
  | fuel + 1, skip, s =>
    let head := s.take skip
    let tail := s.drop skip
    match tail.dropWhile (· ≠ '-') with
    | [] => if s.isEmpty then [] else [s]
    | _ :: rest =>
      let piece := head ++ tail.takeWhile (· ≠ '-')
      match cutAtDashes fuel 2 rest with
      | [] => [piece ++ ['-']]
      | more => piece :: more

/-- Takes out the ranges that go backwards, from the last to the first. -/
def dropBackward : List (List Char) → List (List Char)
  | [] => []
  | p :: rest =>
    match dropBackward rest with
    | [] => [p]
    | q :: more =>
      match p.getLast?, q.head? with
      | some a, some b => if b < a then (p.dropLast ++ q.drop 1) :: more else p :: q :: more
      | _, _ => p :: q :: more

/-- The ranges of the pieces of a class: each character on its own, and a range between the last
character of a piece and the first of the next. -/
def rangesOf : List (List Char) → List Range
  | [] => []
  | p :: rest =>
    let between := match p.getLast?, rest.head?.bind List.head? with
      | some a, some b => [⟨a, b⟩]
      | _, _ => []
    p.map (fun c => ⟨c, c⟩) ++ between ++ rangesOf rest

/-- The class of what stands between brackets. -/
def classOf (body : List Char) : Mark :=
  let pieces :=
    if body.contains '-' then
      dropBackward (cutAtDashes body.length (if body.head? == some '!' then 2 else 1) body)
    else [body]
  match pieces with
  | ('!' :: p) :: rest => .cls true (rangesOf (p :: rest))
  | ps => .cls false (rangesOf ps)

theorem leading_length (mark : Char) (s : List Char) : (leading mark s).2.length ≤ s.length := by
  cases s with
  | nil => simp [leading]
  | cons c rest => by_cases h : c = mark <;> simp [leading, h]

theorem classBody_length {s body rest : List Char} (h : classBody s = some (body, rest)) :
    rest.length < s.length := by
  have h1 := leading_length '!' s
  have h2 := leading_length ']' (leading '!' s).2
  have h3 := (List.dropWhile_suffix (fun c : Char => decide (c ≠ ']'))
    (l := (leading ']' (leading '!' s).2).2)).length_le
  unfold classBody at h
  dsimp only at h
  split at h
  · simp at h
  · rename_i hd
    rw [hd, List.length_cons] at h3
    simp only [Option.some.injEq, Prod.mk.injEq] at h
    rw [← h.2]
    omega

/-- The marks of a part. -/
def marks : List Char → List Mark
  | [] => []
  | '*' :: rest => .run :: marks rest
  | '?' :: rest => .one :: marks rest
  | '[' :: rest =>
    match h : classBody rest with
    | some (body, after) =>
      have := classBody_length h
      classOf body :: marks after
    | none => .char '[' :: marks rest
  | c :: rest => .char c :: marks rest
termination_by s => s.length

/-- Whether a mark stands for a single character. -/
def Mark.takes : Mark → Char → Bool
  | .run, _ => false
  | .one, _ => true
  | .char d, c => c = d
  | .cls negated ranges, c => ranges.any (·.holds c) != negated

/-- A text and all that is left of it from some character on, the longest first. -/
def suffixes : List Char → List (List Char)
  | [] => [[]]
  | c :: rest => (c :: rest) :: suffixes rest

/-- What may be left behind a mark, from what may be left in front of it: of the texts in front
each is the end of those before it. -/
def Mark.behind : Mark → List (List Char) → List (List Char)
  | .run, [] => []
  | .run, s :: _ => suffixes s
  | m, front =>
    front.filterMap fun
      | [] => none
      | c :: rest => if m.takes c then some rest else none

/-- What may be left behind some marks, from what may be left in front of them. -/
def behindAll : List Mark → List (List Char) → List (List Char)
  | [], front => front
  | m :: ms, front => behindAll ms (m.behind front)

/-- Whether a part matches marks from its front to its end. -/
def matchesMarks (ms : List Mark) (s : List Char) : Bool := (behindAll ms [s]).contains []

/-- Whether a part matches a part of a pattern. -/
def matchesPart (pattern part : String) : Bool := matchesMarks (marks pattern.toList) part.toList

/-- Whether parts match patterns, both from the right; there are at least as many parts. -/
def matchesFromRight : List String → List String → Bool
  | [], _ => true
  | _ :: _, [] => false
  | p :: ps, n :: ns => matchesPart p n && matchesFromRight ps ns

/-- Whether a pattern has no parts at all. -/
def isBlankPattern (pattern : String) : Bool := (Path.ofString pattern).parts.isEmpty

/-- Whether a path matches a pattern. -/
def matchesPath (pattern : String) (p : Path) : Bool :=
  let q := Path.ofString pattern
  if q.root = .relative then
    q.names.length ≤ p.parts.length && matchesFromRight q.names.reverse p.parts.reverse
  else
    q.root = p.root && q.names.length = p.names.length
      && matchesFromRight q.names.reverse p.names.reverse

end LintHost.Glob
