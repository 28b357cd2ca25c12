/-
What happens when something else stands in the place of the mark.

A member is marked by a call of the mark: with the member itself, with nothing and then with the
member, or with a name and then with the member.  Whatever else stands there gets the same calls.
Functions and classes that every module knows complain of them each in its own words; where there
is no complaint, the member becomes something that is no analyzer.
-/
import LintHost.Plugin.Ambient
import LintHost.Plugin.ExceptionKind

namespace LintHost.Plugin

/-- What is complained of a call, if anything is. -/
inductive Complaint where
  | fine
  /-- A function cannot be gone through. -/
  | notIterable
  /-- A function is no whole number. -/
  | notInteger
  | oneArgument
  /-- A number of arguments is expected, and another is given. -/
  | expected (count : String) (given : Nat)
  /-- The argument of a name and a place is missing. -/
  | missing (argument : String) (position : Nat)
  | noPositional
  | noKeywords
  | badKeyword
  /-- What the call gives cannot be called with the member. -/
  | uncallable (kind : String)
  | words (text : String)
deriving DecidableEq, Repr

/-- The complaint in words, as the called object of a name makes it. -/
def Complaint.text? (name : String) : Complaint → Option String
  | .fine => none
  | .notIterable => some "'function' object is not iterable"
  | .notInteger => some "'function' object cannot be interpreted as an integer"
  | .oneArgument => some (name ++ "() takes exactly one argument (0 given)")
  | .expected count given => some (name ++ " expected " ++ count ++ ", got " ++ integerString given)
  | .missing argument position =>
    some (name ++ "() missing required argument '" ++ argument ++ "' (pos "
      ++ integerString position ++ ")")
  | .noPositional => some (name ++ "() takes at least 1 positional argument (0 given)")
  | .noKeywords => some (name ++ "() takes no keyword arguments")
  | .badKeyword => some ("'name' is an invalid keyword argument for " ++ name ++ "()")
  | .uncallable kind => some ("'" ++ kind ++ "' object is not callable")
  | .words text => some text

/-- The complaints about the three ways to put the mark. -/
structure Reception where
  bare : Complaint
  called : Complaint
  named : Complaint
deriving DecidableEq, Repr

namespace Reception

/-- The complaint about one of the ways. -/
def about (r : Reception) : Marking → Complaint
  | .bare => r.bare
  | .called => r.called
  | .named _ => r.named

/-- What is raised where the object of a name is put in one of the ways. -/
def raised? (r : Reception) (name : String) (m : Marking) : Option Raised :=
  ((r.about m).text? name).map (.exception "TypeError")

/-- The reception of anything. -/
def fine : Reception := ⟨.fine, .fine, .fine⟩

/-- The reception of something of a kind that cannot be called. -/
def ofUncallable (kind : String) : Reception :=
  ⟨.uncallable kind, .uncallable kind, .uncallable kind⟩

/-- The reception of a class whose instances are made of nothing and cannot be called. -/
def ofEmptyClass (name : String) : Reception :=
  let full : Complaint := .words (name ++ "() takes no arguments")
  ⟨full, .uncallable name, full⟩

/-- The complaint of a class that does not say what to do with a unit. -/
def abstractText (name : String) : String :=
  "Can't instantiate abstract class " ++ name ++ " with abstract method analyze"

/-- The reception of a class of which no instance can be made. -/
def ofAbstractClass (name : String) : Reception :=
  let full : Complaint := .words (name ++ "() takes no arguments")
  ⟨full, .words (abstractText name), full⟩

/-- The reception of a class that is made with nothing but itself, as the class `owner` says it. -/
def ofOwnMaker (owner : String) (called : Complaint) : Reception :=
  ⟨.words (owner ++ ".__init__() takes 1 positional argument but 2 were given"), called,
    .words (owner ++ ".__init__() got an unexpected keyword argument 'name'")⟩

/-- The exceptions that are made with a name. -/
def namedKinds : List String :=
  ["AttributeError", "ImportError", "ModuleNotFoundError", "NameError", "UnboundLocalError"]

/-- The reception of a class of a name whose instances are exceptions of a kind. -/
def ofException (kind name : String) : Reception :=
  match manyPartKinds.lookup kind with
  | some (needed, maker) =>
    let short : Complaint := .words (partsText maker needed 0)
    ⟨.words (partsText maker needed 1), short, if maker = "function" then .noKeywords else short⟩
  | none =>
    ⟨.fine, .uncallable name,
      if namedKinds.contains kind then .uncallable name else .noKeywords⟩

/-- The reception of the class of severities; a severity is made of a value. -/
def ofSeverities : Reception :=
  ⟨.words "<function> is not a valid Severity",
    .words "EnumType.__call__() missing 1 required positional argument: 'value'",
    .words "EnumType.__call__() got an unexpected keyword argument 'name'"⟩

/-- The reception of the class of findings; a finding is made of fields, some of which have to be
there. -/
def ofFindings : Reception :=
  let short : Complaint := .words <| problemsMessage "Diagnostic"
    [⟨[.field "rule_code"], .missing⟩, ⟨[.field "message"], .missing⟩]
  ⟨.words "BaseModel.__init__() takes 1 positional argument but 2 were given", short, short⟩

/-- The receptions of ambient functions and classes, of exceptions apart. -/
def ambient : List (String × Reception) := [
  ("__build_class__", ⟨.words "__build_class__: not enough arguments",
    .words "__build_class__: not enough arguments",
    .words "__build_class__: not enough arguments"⟩),
  ("__import__", ⟨.words "module name must be a string", .missing "name" 1, .fine⟩),
  ("abs", ⟨.words "bad operand type for abs(): 'function'", .oneArgument, .noKeywords⟩),
  ("aiter", ⟨.words "'function' object is not an async iterable", .oneArgument, .noKeywords⟩),
  ("all", ⟨.notIterable, .oneArgument, .noKeywords⟩),
  ("anext", ⟨.words "'function' object is not an async iterator",
    .expected "at least 1 argument" 0, .noKeywords⟩),
  ("any", ⟨.notIterable, .oneArgument, .noKeywords⟩),
  ("ascii", ⟨.fine, .oneArgument, .noKeywords⟩),
  ("bin", ⟨.notInteger, .oneArgument, .noKeywords⟩),
  ("bool", ⟨.fine, .uncallable "bool", .noKeywords⟩),
  ("bytearray", ⟨.words "cannot convert 'function' object to bytearray",
    .uncallable "bytearray", .badKeyword⟩),
  ("bytes", ⟨.words "cannot convert 'function' object to bytes", .uncallable "bytes", .badKeyword⟩),
  ("callable", ⟨.fine, .oneArgument, .noKeywords⟩),
  ("chr", ⟨.notInteger, .oneArgument, .noKeywords⟩),
  ("classmethod", ⟨.fine, .expected "1 argument" 0, .noKeywords⟩),
  ("compile", ⟨.missing "filename" 2, .missing "source" 1, .missing "source" 1⟩),
  ("complex", ⟨.words "complex() first argument must be a string or a number, not 'function'",
    .uncallable "complex", .badKeyword⟩),
  ("delattr", ⟨.expected "2 arguments" 1, .expected "2 arguments" 0, .noKeywords⟩),
  ("dict", ⟨.notIterable, .uncallable "dict", .uncallable "dict"⟩),
  ("dir", ⟨.fine, .uncallable "list", .noKeywords⟩),
  ("divmod", ⟨.expected "2 arguments" 1, .expected "2 arguments" 0, .noKeywords⟩),
  ("enumerate", ⟨.notIterable,
    .words "enumerate() missing required argument 'iterable'", .badKeyword⟩),
  ("eval", ⟨.words "eval() arg 1 must be a string, bytes or code object",
    .expected "at least 1 argument" 0, .noKeywords⟩),
  ("exec", ⟨.words "exec() arg 1 must be a string, bytes or code object",
    .noPositional, .noPositional⟩),
  ("exit", ⟨.fine,
    .words "None", .words "Quitter.__call__() got an unexpected keyword argument 'name'"⟩),
  ("filter", ⟨.expected "2 arguments" 1, .expected "2 arguments" 0, .noKeywords⟩),
  ("float", ⟨.words "float() argument must be a string or a real number, not 'function'",
    .uncallable "float", .noKeywords⟩),
  ("format", ⟨.fine, .expected "at least 1 argument" 0, .noKeywords⟩),
  ("frozenset", ⟨.notIterable, .uncallable "frozenset", .noKeywords⟩),
  ("getattr", ⟨.expected "at least 2 arguments" 1,
    .expected "at least 2 arguments" 0, .noKeywords⟩),
  ("globals", ⟨.words "globals() takes no arguments (1 given)", .uncallable "dict", .noKeywords⟩),
  ("hasattr", ⟨.expected "2 arguments" 1, .expected "2 arguments" 0, .noKeywords⟩),
  ("hash", ⟨.fine, .oneArgument, .noKeywords⟩),
  ("help", ⟨.fine,
    .uncallable "NoneType", .words "Helper.__call__() got an unexpected keyword argument 'name'"⟩),
  ("hex", ⟨.notInteger, .oneArgument, .noKeywords⟩),
  ("id", ⟨.fine, .oneArgument, .noKeywords⟩),
  ("int",
    ⟨.words "int() argument must be a string, a bytes-like object or a real number, not 'function'",
      .uncallable "int", .badKeyword⟩),
  ("isinstance", ⟨.expected "2 arguments" 1, .expected "2 arguments" 0, .noKeywords⟩),
  ("issubclass", ⟨.expected "2 arguments" 1, .expected "2 arguments" 0, .noKeywords⟩),
  ("iter", ⟨.notIterable, .expected "at least 1 argument" 0, .noKeywords⟩),
  ("len", ⟨.words "object of type 'function' has no len()", .oneArgument, .noKeywords⟩),
  ("list", ⟨.notIterable, .uncallable "list", .noKeywords⟩),
  ("locals", ⟨.words "locals() takes no arguments (1 given)", .uncallable "dict", .noKeywords⟩),
  ("map", ⟨.words "map() must have at least two arguments.",
    .words "map() must have at least two arguments.", .noKeywords⟩),
  ("max", ⟨.notIterable, .expected "at least 1 argument" 0, .expected "at least 1 argument" 0⟩),
  ("memoryview", ⟨.words "memoryview: a bytes-like object is required, not 'function'",
    .missing "object" 1, .missing "object" 1⟩),
  ("min", ⟨.notIterable, .expected "at least 1 argument" 0, .expected "at least 1 argument" 0⟩),
  ("next", ⟨.words "'function' object is not an iterator",
    .expected "at least 1 argument" 0, .noKeywords⟩),
  ("object", ⟨.words "object() takes no arguments",
    .uncallable "object", .words "object() takes no arguments"⟩),
  ("oct", ⟨.notInteger, .oneArgument, .noKeywords⟩),
  ("open", ⟨.words "expected str, bytes or os.PathLike object, not function",
    .missing "file" 1, .missing "file" 1⟩),
  ("ord", ⟨.words "ord() expected string of length 1, but function found",
    .oneArgument, .noKeywords⟩),
  ("pow", ⟨.missing "exp" 2, .missing "base" 1, .missing "base" 1⟩),
  ("print", ⟨.fine, .uncallable "NoneType", .badKeyword⟩),
  ("property", ⟨.fine, .uncallable "property", .badKeyword⟩),
  ("quit", ⟨.fine,
    .words "None", .words "Quitter.__call__() got an unexpected keyword argument 'name'"⟩),
  ("range", ⟨.notInteger, .expected "at least 1 argument" 0, .noKeywords⟩),
  ("repr", ⟨.fine, .oneArgument, .noKeywords⟩),
  ("reversed", ⟨.words "'function' object is not reversible",
    .expected "1 argument" 0, .noKeywords⟩),
  ("round", ⟨.words "type function doesn't define __round__ method",
    .missing "number" 1, .missing "number" 1⟩),
  ("set", ⟨.notIterable, .uncallable "set", .noKeywords⟩),
  ("setattr", ⟨.expected "3 arguments" 1, .expected "3 arguments" 0, .noKeywords⟩),
  ("slice", ⟨.fine, .expected "at least 1 argument" 0, .noKeywords⟩),
  ("sorted", ⟨.notIterable, .expected "1 argument" 0, .expected "1 argument" 0⟩),
  ("staticmethod", ⟨.fine, .expected "1 argument" 0, .noKeywords⟩),
  ("str", ⟨.fine, .uncallable "str", .badKeyword⟩),
  ("sum", ⟨.notIterable, .noPositional, .noPositional⟩),
  ("super", ⟨.words "super() argument 1 must be a type, not function",
    .words "super(): no arguments", .noKeywords⟩),
  ("tuple", ⟨.notIterable, .uncallable "tuple", .noKeywords⟩),
  ("type", ⟨.fine, .words "type() takes 1 or 3 arguments", .words "type() takes 1 or 3 arguments"⟩),
  ("vars", ⟨.fine, .uncallable "dict", .noKeywords⟩),
  ("zip", ⟨.notIterable, .uncallable "zip", .badKeyword⟩)
]

/-- The reception of an ambient name. -/
def ofAmbient (name : String) : Reception :=
  if Ambient.exceptionClasses.contains name then ofException (kindNamed name) (kindNamed name)
  else
    match ambient.lookup name, Ambient.kindOf? name with
    | some r, _ => r
    | none, some kind => ofUncallable kind
    | none, none => fine

end Reception

end LintHost.Plugin
