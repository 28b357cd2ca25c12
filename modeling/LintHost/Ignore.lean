/-
Rules for ignored files.

A rule file holds a rule on each line that is neither blank nor a remark.  A rule becomes a
regular expression in a few steps: its negation, stars that count double only between slashes, its
anchoring by a slash inside it, its escapes and trailing spaces.  The expression is looked for
anywhere in the path of a file below the directory of the rules.  Without negated rules a file is
ignored when any rule matches; with them the last rule that matches decides.
-/
import LintHost.Regex
import LintHost.Path
import LintHost.Failure
import LintHost.Text.Blank

namespace LintHost.Ignore

open LintHost.Text

/-- A rule: whether it takes files back, and the text of its expression. -/
structure Rule where
  negated : Bool
  expression : List Char
deriving DecidableEq, Repr

/-- The number of stars at the front. -/
def stars (s : List Char) : Nat := (s.takeWhile (· = '*')).length

/-- Writes two or more stars after a character other than a slash as one. -/
def mergeStarsAfter : Nat → List Char → List Char
  | 0, s => s
  | _ + 1, [] => []
  | fuel + 1, c :: rest =>
    if c ≠ '/' && 2 ≤ stars rest then c :: '*' :: mergeStarsAfter fuel (rest.drop (stars rest))
    else c :: mergeStarsAfter fuel rest

/-- Writes two or more stars in front of a character other than a slash as one. -/
def mergeStarsBefore : Nat → List Char → List Char
  | 0, s => s
  | _ + 1, [] => []
  | fuel + 1, c :: rest =>
    let n := stars (c :: rest)
    let after := (c :: rest).drop n
    match after with
    | x :: more =>
      if 2 ≤ n && x ≠ '/' then '*' :: x :: mergeStarsBefore fuel more
      else if 3 ≤ n then '*' :: '*' :: mergeStarsBefore fuel after
      else c :: mergeStarsBefore fuel rest
    | [] => if 3 ≤ n then ['*', '*'] else c :: mergeStarsBefore fuel rest

/-- The stars of a rule, where they count double and where they do not. -/
def mergeStars (s : List Char) : List Char :=
  let s := mergeStarsAfter s.length s
  mergeStarsBefore s.length s

/-- The first character, which has to be there. -/
def firstOf : List Char → Except IgnoreProblem Char
  | [] => .error .cutShort
  | c :: _ => .ok c

/-- The last character, which has to be there. -/
def lastOf (s : List Char) : Except IgnoreProblem Char :=
  match s.getLast? with
  | none => .error .cutShort
  | some c => .ok c

/-- Drops spaces at the end, going back from position `i`: an escaped space stays and loses its
backslash, and nothing in front of it is dropped. -/
def dropSpaces (s : List Char) (dropping : Bool) : Nat → List Char
  | 0 => s
  | 1 => s
  | i + 2 =>
    if s[i + 2]? ≠ some ' ' then s
    else if s[i + 1]? = some '\\' then
      dropSpaces (s.take (i + 1) ++ s.drop (i + 2)) false i
    else dropSpaces (if dropping then s.take (i + 2) else s) dropping (i + 1)

/-- Characters that an expression has to escape to mean themselves. -/
def isSpecial (c : Char) : Bool :=
  "()[]\x7b\x7d?*+-|^$\\.&~# \t\n\r".toList.contains c || c.toNat == 0x0B || c.toNat == 0x0C

/-- A character that means itself. -/
def escaped (c : Char) : List Char := if isSpecial c then ['\\', c] else [c]

/-- What stands between brackets, and what follows; a closing bracket that comes first is part of
it. -/
def classBody (s : List Char) : Option (List Char × List Char) :=
  let bang := s.takeWhile (· = '!') |>.take 1
  let s := s.drop bang.length
  let first := s.takeWhile (· = ']') |>.take 1
  let s := s.drop first.length
  match s.dropWhile (· ≠ ']') with
  | [] => none
  | _ :: rest => some (bang ++ first ++ s.takeWhile (· ≠ ']'), rest)

/-- A class in an expression: backslashes mean themselves and slashes are dropped. -/
def classText (body : List Char) : Except IgnoreProblem (List Char) :=
  match (body.filter (· ≠ '/')).flatMap fun c => if c = '\\' then ['\\', '\\'] else [c] with
  | [] => .error .cutShort
  | '!' :: rest => .ok ('[' :: '^' :: rest ++ [']'])
  | '^' :: rest => .ok ('[' :: '\\' :: '^' :: rest ++ [']'])
  | rest => .ok ('[' :: rest ++ [']'])

/-- The expression of a rule without its ends. -/
def bodyText : Nat → List Char → Except IgnoreProblem (List Char)
  | 0, _ => .ok []
  | fuel + 1, s =>
    match s with
    | [] => .ok []
    | '*' :: '*' :: '/' :: rest => do .ok ("(.*[/])?".toList ++ (← bodyText fuel rest))
    | '*' :: '*' :: rest => do .ok (".*".toList ++ (← bodyText fuel rest))
    | '*' :: rest => do .ok ("[^/]*".toList ++ (← bodyText fuel rest))
    | '?' :: rest => do .ok ("[^/]".toList ++ (← bodyText fuel rest))
    | '/' :: rest => do .ok ("[/]".toList ++ (← bodyText fuel rest))
    | '[' :: rest =>
      match classBody rest with
      | some (body, after) => do .ok ((← classText body) ++ (← bodyText fuel after))
      | none => do .ok ('\\' :: '[' :: (← bodyText fuel rest))
    | c :: rest => do .ok (escaped c ++ (← bodyText fuel rest))

/-- The rule of a line; `none` for a line that holds no rule. -/
def Rule.ofLine (line : List Char) : Except IgnoreProblem (Option Rule) :=
  if (strip line).isEmpty || line.head? == some '#' then .ok none
  else do
    let negated := line.head? == some '!'
    let s := mergeStars (if negated then line.drop 1 else line)
    if stripRight s = ['/'] then .ok none
    else
      let directoryOnly := (← lastOf s) = '/'
      let anchored := s.dropLast.contains '/'
      let s := if (← firstOf s) = '/' then s.drop 1 else s
      let deep := (← firstOf s) = '*' && s[1]? = some '*'
      let anchored := anchored && !deep
      let s := if deep then s.drop 2 else s
      let s := if (← firstOf s) = '/' then s.drop 1 else s
      let s := if (← lastOf s) = '/' then s.dropLast else s
      let marked ← if (← firstOf s) = '\\' then do
                     let c ← firstOf (s.drop 1)
                     pure (c = '#' || c = '!')
                   else pure false
      let s := if marked then s.drop 1 else s
      let s := dropSpaces s true (s.length - 1)
      let body ← bodyText s.length s
      let front := if anchored then ['^'] else "(^|[/])".toList
      let back :=
        if !directoryOnly then ['$'] else if negated then "/$".toList else "($|\\/)".toList
      .ok (some ⟨negated, front ++ body ++ back⟩)

/-- The lines of a text whose line ends are unified. -/
def splitLines : List Char → List (List Char)
  | [] => [[]]
  | c :: rest =>
    if c = '\n' then [] :: splitLines rest
    else
      match splitLines rest with
      | [] => [[c]]
      | l :: more => (c :: l) :: more

/-- The rules of a file. -/
def rulesOf (text : List Char) : Except IgnoreProblem (List Rule) := do
  let found ← (splitLines text).mapM Rule.ofLine
  .ok (found.filterMap id)

/-- Whether a rule matches the path of a file below the directory of the rules. -/
def Rule.matchesPath (r : Rule) (path : List Char) : Except IgnoreProblem Bool :=
  match Regex.read? r.expression with
  | some e => .ok (e.search path)
  | none => .error .badClass

/-- The first rule that matches. -/
def firstMatch (path : List Char) : List Rule → Except IgnoreProblem (Option Rule)
  | [] => .ok none
  | r :: rest => do
    if ← r.matchesPath path then .ok (some r) else firstMatch path rest

/-- Whether the rules ignore the file with this path below their directory. -/
def ignores (rules : List Rule) (path : List Char) : Except IgnoreProblem Bool := do
  if rules.any (·.negated) then
    .ok ((← firstMatch path rules.reverse).any fun r => !r.negated)
  else .ok (← firstMatch path rules).isSome

end LintHost.Ignore
