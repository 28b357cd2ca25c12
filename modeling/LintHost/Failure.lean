/-
How an operation of the host can fail.

A failure is a cause with what is needed to tell it; `Failure.message?` puts the causes that have a
text into words.  What analyzer code raises is a cause of its own kind, `Raised`: the host recovers
from an exception by telling its text, and lets an interrupt through.  Asking an exception for its
text may itself raise something, and that goes through like an interrupt.
-/
import LintHost.Check
import LintHost.Text.Quoted
import LintHost.Yaml.Cursor

namespace LintHost

/-- Why the file system refuses an operation. -/
inductive OsCause where
  | missing
  | notDirectory
  | isDirectory
  | nameTooLong
deriving DecidableEq, Repr

/-- The number of a cause. -/
def OsCause.number : OsCause → Nat
  | .missing => 2
  | .notDirectory => 20
  | .isDirectory => 21
  | .nameTooLong => 36

/-- The wording of a cause. -/
def OsCause.text : OsCause → String
  | .missing => "No such file or directory"
  | .notDirectory => "Not a directory"
  | .isDirectory => "Is a directory"
  | .nameTooLong => "File name too long"

/-- A cause and the path it is about. -/
structure OsFailure where
  cause : OsCause
  path : String
deriving DecidableEq, Repr

/-- A text in quotes. -/
def quotedString (s : String) : String := String.ofList (Text.quoted s.toList)

/-- A whole number as text. -/
def integerString (n : Int) : String := String.ofList (Text.integer n)

/-- The cause in words. -/
def OsFailure.message (f : OsFailure) : String :=
  "[Errno " ++ integerString f.cause.number ++ "] " ++ f.cause.text ++ ": " ++ quotedString f.path

/-- What goes through the host: an exception that is raised where none is expected, or an interrupt,
by its kind. -/
inductive Escape where
  | exception (kind : String)
  | interrupt (kind : String)
deriving DecidableEq, Repr, Inhabited

/-- What analyzer code raises: an exception by its kind and its text, an exception that cannot be
asked for its text, with what is raised instead, or an interrupt by its kind. -/
inductive Raised where
  | exception (kind text : String)
  | speechless (kind : String) (instead : Escape)
  | interrupt (kind : String)
deriving DecidableEq, Repr, Inhabited

/-- Kind and text of what was raised, as a handler tells them; or what goes through the handler. -/
def Raised.told : Raised → Except Escape (String × String)
  | .exception kind text => .ok (kind, text)
  | .speechless _ instead => .error instead
  | .interrupt kind => .error (.interrupt kind)

/-- What is wrong with a configuration. -/
inductive ConfigProblem where
  /-- The file breaks the notation. -/
  | unparsable (path : String)
  /-- The file holds something else than a mapping. -/
  | notMapping (path kind : String)
  /-- A section is no mapping. -/
  | badSection (name : String)
  /-- The list of analyzers is no list. -/
  | analyzers
deriving DecidableEq, Repr

def ConfigProblem.message : ConfigProblem → String
  | .unparsable path => "Error parsing project config file at " ++ path
  | .notMapping path kind =>
    "Error parsing project config file at " ++ path
      ++ ": top-level value must be a mapping, got " ++ kind
  | .badSection name => "Configuration section '" ++ name ++ "' must be a mapping."
  | .analyzers => "Configuration key 'analyzers' must be a list of paths."

/-- What a word names that is no level of the log. -/
inductive LevelProblem where
  /-- The layout of a line, which is a text. -/
  | layout
  /-- The styles of lines, which are a table. -/
  | styles
deriving DecidableEq, Repr

/-- Why an analyzer module is not loaded. -/
inductive LoadProblem where
  | notFound
  | failed (text : String)
deriving DecidableEq, Repr

/-- A module that is not loaded, by the path it was asked for with. -/
structure LoadFailure where
  path : String
  problem : LoadProblem
deriving DecidableEq, Repr

def LoadFailure.message (f : LoadFailure) : String :=
  match f.problem with
  | .notFound => "Analyzer module not found: " ++ f.path
  | .failed text => "Failed to load analyzer from " ++ f.path ++ ": " ++ text

/-- Why a rule for ignored files cannot be used. -/
inductive IgnoreProblem where
  /-- The rule stops where a character is needed. -/
  | cutShort
  /-- A class of characters has a range that goes backwards, or does not end. -/
  | badClass
deriving DecidableEq, Repr

/-- How an operation fails. -/
inductive Failure where
  | os (f : OsFailure)
  /-- A path with the character U+0000. -/
  | nulInPath
  /-- A text with a half of a character where whole ones are needed. -/
  | halfInText
  /-- A file that is not text in UTF-8. -/
  | undecodable
  | yaml (e : Yaml.Error)
  | ignoreRule (p : IgnoreProblem)
  /-- A pattern without parts. -/
  | emptyPattern
  | badJobs (n : Int)
  | config (p : ConfigProblem)
  | load (f : LoadFailure)
  /-- A report format by a name that none has. -/
  | unknownFormat (shown : String)
  /-- Data that do not fit the shape of a model. -/
  | invalid (model : String) (problems : List Problem)
  /-- A section with a key that is no text. -/
  | keyNotText
  /-- Something else than a mapping where entries are merged. -/
  | notMergeable
  /-- Entries laid over a list. -/
  | keyInList
  /-- Too many mappings inside each other, laid over others. -/
  | mergeTooDeep
  /-- Too many directories inside each other below the start of a walk. -/
  | walkTooDeep
  /-- A value that is not written out. -/
  | unwritable (o : Obstacle)
  /-- A word for a level that names another part of the log. -/
  | badLevel (p : LevelProblem)
  /-- An exception of analyzer code, of this kind, went through. -/
  | escaped (kind : String)
  /-- An interrupt of this kind went through. -/
  | interrupted (kind : String)
deriving DecidableEq, Repr

/-- The failure of an operation that something goes through. -/
def Escape.failure : Escape → Failure
  | .exception kind => .escaped kind
  | .interrupt kind => .interrupted kind

/-- The names of the report formats, as messages list them. -/
def formatNames : String := "text, sarif"

/-- The problems of a model, as a message lists them. -/
def problemsMessage (model : String) (problems : List Problem) : String :=
  let n := problems.length
  integerString n ++ (if n = 1 then " validation error for " else " validation errors for ")
    ++ model
    ++ String.join (problems.map fun p => "\n" ++ p.dotted ++ "\n  [" ++ p.fault.code ++ "]")

/-- The failure in words, if it has any. -/
def Failure.message? : Failure → Option String
  | .os f => some f.message
  | .nulInPath => some "embedded null byte"
  | .emptyPattern => some "empty pattern"
  | .badJobs n => some ("jobs must be at least 1, got " ++ integerString n)
  | .config p => some p.message
  | .load f => some f.message
  | .unknownFormat shown =>
    some ("Unknown output format: " ++ shown ++ ". Supported formats: " ++ formatNames)
  | .invalid model problems => some (problemsMessage model problems)
  | .halfInText | .undecodable | .yaml _ | .ignoreRule _ | .keyNotText | .notMergeable
  | .keyInList | .mergeTooDeep | .walkTooDeep | .unwritable _ | .badLevel _ | .escaped _
  | .interrupted _ => none

end LintHost
