/-
The options of the command and their notation.

Long options may carry their value behind an equals sign, short ones behind their letter, and
short options without a value may share a dash.  An option that takes a value takes whatever comes
next.  Two dashes alone end the options; all that is no option is an extra argument.
-/
import LintHost.Text.Search
import LintHost.Failure

namespace LintHost.Command

/-- The options. -/
inductive Opt where
  | analyzers
  | target
  | format
  | verbose
  | quiet
  | output
  | jobs
  | config
  | version
  | help
deriving DecidableEq, Repr, Inhabited

namespace Opt

/-- Every option, in the order of the help. -/
def all : List Opt :=
  [.analyzers, .target, .format, .verbose, .quiet, .output, .jobs, .config, .version, .help]

/-- The long name. -/
def long : Opt → String
  | .analyzers => "--analyzers"
  | .target => "--target"
  | .format => "--format"
  | .verbose => "--verbose"
  | .quiet => "--quiet"
  | .output => "--output"
  | .jobs => "--jobs"
  | .config => "--config"
  | .version => "--version"
  | .help => "--help"

/-- The letter of the short name, if there is one. -/
def letter : Opt → Option Char
  | .verbose => some 'v'
  | .quiet => some 'q'
  | .output => some 'o'
  | .jobs => some 'j'
  | .help => some 'h'
  | _ => none

/-- Whether the option takes a value. -/
def takesValue : Opt → Bool
  | .analyzers | .target | .format | .output | .jobs | .config => true
  | .verbose | .quiet | .version | .help => false

/-- Whether the option ends the command when it is reached, before all others. -/
def isEager : Opt → Bool
  | .version | .help => true
  | _ => false

def ofLong? (s : List Char) : Option Opt := all.find? fun o => o.long.toList == s

def ofLetter? (c : Char) : Option Opt := all.find? fun o => o.letter == some c

end Opt

/-- What is wrong with a command line. -/
inductive UsageProblem where
  | unknown (name : String) (similar : List String)
  | needsValue (name : String)
  | takesNoValue (name : String)
  | missing (name : String)
  | extra (arguments : List String)
  /-- A value that its option does not take: the names of the option, and why. -/
  | badValue (names why : String)
  | other (text : String)
deriving DecidableEq, Repr

/-- An option as it was given. -/
structure Given where
  option : Opt
  value : String
deriving DecidableEq, Repr

/-- A command line taken apart. -/
structure Parsed where
  given : List Given
  extra : List String
deriving DecidableEq, Repr

/-! ### Names close to an unknown one -/

/-- The length of the common front of two texts. -/
def commonFront : List Char → List Char → Nat
  | a :: as, b :: bs => if a = b then commonFront as bs + 1 else 0
  | _, _ => 0

/-- The longest common stretch of two texts: where it begins in each, and its length. Of several
the first counts. -/
def longestCommon (a b : List Char) : Nat × Nat × Nat :=
  let places := (List.range a.length).flatMap fun i => (List.range b.length).map fun j => (i, j)
  places.foldl (fun best p =>
    let n := commonFront (a.drop p.1) (b.drop p.2)
    if best.2.2 < n then (p.1, p.2, n) else best) (0, 0, 0)

/-- The number of characters in common stretches: the longest, and those on both sides of it. -/
def commonCharacters : Nat → List Char → List Char → Nat
  | 0, _, _ => 0
  | fuel + 1, a, b =>
    let (i, j, n) := longestCommon a b
    if n = 0 then 0
    else
      n + commonCharacters fuel (a.take i) (b.take j)
        + commonCharacters fuel (a.drop (i + n)) (b.drop (j + n))

/-- The long names close to an unknown one: at most three, those with six tenths of their
characters in common. -/
def similarNames (name : String) : List String :=
  let scored := Opt.all.filterMap fun o =>
    let a := o.long.toList
    let b := name.toList
    let common := commonCharacters (a.length + 1) a b
    let total := a.length + b.length
    if 10 * common ≥ 3 * total then some (common, total, o.long) else none
  let nearer (x y : Nat × Nat × String) : Bool :=
    let p := x.1 * y.2.1
    let q := y.1 * x.2.1
    q < p || (q == p && decide (y.2.2 ≤ x.2.2))
  (((scored.mergeSort nearer).take 3).map (·.2.2)).mergeSort fun x y => decide (x ≤ y)

/-! ### Taking a command line apart -/

/-- Reads letters behind a single dash; `rest` are the arguments after it. -/
def parseLetters : List Char → List String → Except UsageProblem (List Given × List String)
  | [], rest => .ok ([], rest)
  | c :: more, rest =>
    match Opt.ofLetter? c with
    | none => .error (.unknown (String.ofList ['-', c]) [])
    | some o =>
      if o.takesValue then
        if !more.isEmpty then .ok ([⟨o, String.ofList more⟩], rest)
        else
          match rest with
          | [] => .error (.needsValue (String.ofList ['-', c]))
          | v :: rest => .ok ([⟨o, v⟩], rest)
      else do
        let (given, rest) ← parseLetters more rest
        .ok (⟨o, ""⟩ :: given, rest)

/-- Reads a long option; `rest` are the arguments after it. -/
def parseLong (arg : List Char) (rest : List String) :
    Except UsageProblem (List Given × List String) :=
  let name := arg.takeWhile (· ≠ '=')
  let attached := (arg.dropWhile (· ≠ '=')).drop 1
  let hasValue := arg.contains '='
  match Opt.ofLong? name with
  | none => .error (.unknown (String.ofList name) (similarNames (String.ofList name)))
  | some o =>
    if o.takesValue then
      if hasValue then .ok ([⟨o, String.ofList attached⟩], rest)
      else
        match rest with
        | [] => .error (.needsValue (String.ofList name))
        | v :: rest => .ok ([⟨o, v⟩], rest)
    else if hasValue then .error (.takesNoValue (String.ofList name))
    else .ok ([⟨o, ""⟩], rest)

/-- Takes arguments apart; each round takes at least one of them. -/
def parseArguments : Nat → List String → Except UsageProblem Parsed
  | 0, _ => .ok ⟨[], []⟩
  | _ + 1, [] => .ok ⟨[], []⟩
  | fuel + 1, arg :: rest =>
    let after (r : Except UsageProblem (List Given × List String)) :
        Except UsageProblem Parsed := do
      let (given, rest) ← r
      let more ← parseArguments fuel rest
      .ok ⟨given ++ more.given, more.extra⟩
    match arg.toList with
    | ['-', '-'] => .ok ⟨[], rest⟩
    | '-' :: '-' :: name => after (parseLong ('-' :: '-' :: name) rest)
    | '-' :: c :: letters => after (parseLetters (c :: letters) rest)
    | _ => do
      let more ← parseArguments fuel rest
      .ok ⟨more.given, arg :: more.extra⟩

/-- Takes a command line apart. -/
def parse (args : List String) : Except UsageProblem Parsed :=
  parseArguments (args.length + 1) args

end LintHost.Command
