/-
Regular expressions, as far as rules for ignored files need them.

An expression is read from its text: groups, alternatives, classes, a point for any character but
a line end, the two anchors, escapes, and the marks for repetition and option.  `reach` gives the
offsets at which a match from one of some offsets may end, and `search` asks for a match from
anywhere: all offsets are followed at once, so that no way through the text is gone twice.
-/

namespace LintHost

/-- A regular expression. -/
inductive Regex where
  | empty
  | cls (negated : Bool) (ranges : List (Char × Char))
  | any
  | front
  | back
  | seq (a b : Regex)
  | alt (a b : Regex)
  | star (a : Regex)
  | opt (a : Regex)
deriving Repr, Inhabited

namespace Regex

/-- A single character. -/
def char (c : Char) : Regex := .cls false [(c, c)]

/-! ### Reading -/

/-- One character of a class, an escape being the character behind it. -/
def classChar : List Char → Option (Char × List Char)
  | '\\' :: c :: rest => some (c, rest)
  | '\\' :: [] => none
  | c :: rest => some (c, rest)
  | [] => none

/-- Reads a class after its opening bracket and its negation. A closing bracket that comes first
is part of the class; a range may not go backwards, and the class has to be closed. -/
def readClass : Nat → List (Char × Char) → List Char → Option (List (Char × Char) × List Char)
  | 0, _, _ => none
  | fuel + 1, ranges, s =>
    match s with
    | [] => none
    | ']' :: rest =>
      if ranges.isEmpty then readMember fuel ranges ']' rest else some (ranges, rest)
    | s =>
      match classChar s with
      | none => none
      | some (c, rest) => readMember fuel ranges c rest
where
  /-- Goes on after a character, which may begin a range. -/
  readMember (fuel : Nat) (ranges : List (Char × Char)) (c : Char) (rest : List Char) :
      Option (List (Char × Char) × List Char) :=
    match rest with
    | '-' :: ']' :: after => some (ranges ++ [(c, c), ('-', '-')], after)
    | '-' :: more =>
      match classChar more with
      | none => none
      | some (d, after) => if d < c then none else readClass fuel (ranges ++ [(c, d)]) after
    | _ => readClass fuel (ranges ++ [(c, c)]) rest

mutual

/-- Reads alternatives up to the end of the text or of the group. -/
def readAlternatives : Nat → List Char → Option (Regex × List Char)
  | 0, _ => none
  | fuel + 1, s => do
    let (a, rest) ← readSequence fuel s
    match rest with
    | '|' :: rest =>
      let (b, rest) ← readAlternatives fuel rest
      some (.alt a b, rest)
    | rest => some (a, rest)

/-- Reads one piece after the other. -/
def readSequence : Nat → List Char → Option (Regex × List Char)
  | 0, _ => none
  | fuel + 1, s =>
    match s with
    | [] => some (.empty, [])
    | '|' :: rest => some (.empty, '|' :: rest)
    | ')' :: rest => some (.empty, ')' :: rest)
    | s => do
      let (a, rest) ← readPiece fuel s
      let (a, rest) := match rest with
        | '*' :: rest => (Regex.star a, rest)
        | '?' :: rest => (Regex.opt a, rest)
        | rest => (a, rest)
      let (b, rest) ← readSequence fuel rest
      some (.seq a b, rest)

/-- Reads a single piece. -/
def readPiece : Nat → List Char → Option (Regex × List Char)
  | 0, _ => none
  | fuel + 1, s =>
    match s with
    | '(' :: rest => do
      let (a, rest) ← readAlternatives fuel rest
      match rest with
      | ')' :: rest => some (a, rest)
      | _ => none
    | '[' :: '^' :: rest => do
      let (ranges, rest) ← readClass (rest.length + 1) [] rest
      some (.cls true ranges, rest)
    | '[' :: rest => do
      let (ranges, rest) ← readClass (rest.length + 1) [] rest
      some (.cls false ranges, rest)
    | '.' :: rest => some (.any, rest)
    | '^' :: rest => some (.front, rest)
    | '$' :: rest => some (.back, rest)
    | '\\' :: c :: rest => some (char c, rest)
    | c :: rest => some (char c, rest)
    | [] => none

end

/-- The expression of a text. -/
def read? (s : List Char) : Option Regex := do
  let (r, rest) ← readAlternatives (3 * s.length + 3) s
  if rest.isEmpty then some r else none

/-! ### Matching -/

/-- Whether a class holds a character. -/
def inClass (ranges : List (Char × Char)) (c : Char) : Bool :=
  ranges.any fun r => r.1 ≤ c && c ≤ r.2

/-- A set of offsets in a text: whether each one is in it, up to the end of the text. -/
abbrev Offsets := List Bool

/-- The offsets of either set. -/
def union (a b : Offsets) : Offsets := List.zipWith (· || ·) a b

/-- The offsets behind the characters that pass, from the offsets in front of them. -/
def advance (passes : Char → Bool) : Bool → List Char → Offsets → Offsets
  | reached, c :: text, here :: more => reached :: advance passes (here && passes c) text more
  | reached, _, _ => [reached]

/-- The offsets reached from some offsets by any number of steps, at most `n`. -/
def closure (next : Offsets → Offsets) : Nat → Offsets → Offsets
  | 0, reached => reached
  | n + 1, reached =>
    let more := union reached (next reached)
    if more = reached then reached else closure next n more

/-- The offsets at the end of a text, and in front of a line end that ends it. -/
def atBack : List Char → Offsets
  | [] => [true]
  | ['\n'] => [true, true]
  | _ :: rest => false :: atBack rest

/-- The offsets at which a match that begins at one of some offsets may end. -/
def reach (text : List Char) : Regex → Offsets → Offsets
  | .empty, s => s
  | .cls negated ranges, s => advance (fun c => inClass ranges c != negated) false text s
  | .any, s => advance (· ≠ '\n') false text s
  | .front, s =>
    match s with
    | [] => []
    | here :: rest => here :: rest.map fun _ => false
  | .back, s => List.zipWith (· && ·) s (atBack text)
  | .seq a b, s => reach text b (reach text a s)
  | .alt a b, s => union (reach text a s) (reach text b s)
  | .star a, s => closure (reach text a) text.length s
  | .opt a, s => union s (reach text a s)

/-- Whether the expression matches anywhere in a text. -/
def search (r : Regex) (text : List Char) : Bool :=
  (reach text r (List.replicate (text.length + 1) true)).contains true

end Regex

end LintHost
