/-
Kinds of exception, and what is raised when one of them is made.

Most kinds take any message and show it as a value shows on its own.  A few show it otherwise, go by
another name, need more parts than a message, or interrupt the host.
-/
import LintHost.Plugin.Script
import LintHost.Value.Display

namespace LintHost.Plugin

/-- The kinds of exception that the host does not recover from. -/
def interruptKinds : List String := ["KeyboardInterrupt", "GeneratorExit", "BaseException"]

/-- The kind of exception that is about a missing key: its text shows the key as it stands inside
other values. -/
def missingKeyKind : String := "KeyError"

/-- The kinds of exception that show an absent value where they were given none. -/
def syntaxKinds : List String := ["SyntaxError", "IndentationError", "TabError"]

/-- Other names of a kind of exception. -/
def aliasKinds : List (String × String) :=
  [("EnvironmentError", "OSError"), ("IOError", "OSError")]

/-- The kind of exception that goes by a name. -/
def kindNamed (name : String) : String := (aliasKinds.lookup name).getD name

/-- The kinds of exception that are made of more than a message: how many parts they need, and how
the maker is called where it complains. -/
def manyPartKinds : List (String × Nat × String) := [
  ("UnicodeDecodeError", 5, "function"),
  ("UnicodeEncodeError", 5, "function"),
  ("UnicodeTranslateError", 4, "function"),
  ("BaseExceptionGroup", 2, "BaseExceptionGroup.__new__()"),
  ("ExceptionGroup", 2, "BaseExceptionGroup.__new__()")
]

/-- The complaint of a maker that does not get the parts it needs. -/
def partsText (maker : String) (needed given : Nat) : String :=
  maker ++ " takes exactly " ++ integerString needed
    ++ " arguments (" ++ integerString given ++ " given)"

/-- The text of an exception of a kind, from what it was made with. -/
def exceptionText (kind : String) : Option Json → String
  | none => if syntaxKinds.contains kind then Value.null.displayText else ""
  | some m =>
    if kind = missingKeyKind then String.ofList m.toValue.inner else m.toValue.displayText

/-- What is raised when an exception of a kind is made and raised. -/
def raisedAs (kind : String) (message : Option Json) : Raised :=
  if interruptKinds.contains kind then .interrupt kind
  else
    match manyPartKinds.lookup kind with
    | some (needed, maker) =>
      .exception "TypeError" (partsText maker needed (if message.isSome then 1 else 0))
    | none => .exception (kindNamed kind) (exceptionText kind message)

end LintHost.Plugin
