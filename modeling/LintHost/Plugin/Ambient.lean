/-
Names that every module knows without binding them.

A module can bind a name of its own to any of them.  Most of them are classes, below which a class
of the module may stand; the others are functions, closed classes and single values, below which
none may.  What a value says to that is part of what it stands for.  A few of the values are the
module's own and are bound in it from the start.  The notices that a console can print are left out.
-/

namespace LintHost.Plugin

/-- What an ambient name stands for: a class or anything else is open when a class may stand below
it. -/
inductive Ambient where
  | openClass
  | closedClass
  | function
  | value (refusal : String)
deriving DecidableEq, Repr

namespace Ambient

/-- The classes of ordinary values. -/
def valueClasses : List String := [
  "bytearray", "bytes", "classmethod", "complex", "dict", "enumerate", "filter", "float",
  "frozenset", "int", "list", "map", "object", "property", "reversed", "set", "staticmethod",
  "str", "super", "tuple", "type", "zip"
]

/-- The classes of exceptions and warnings. -/
def exceptionClasses : List String := [
  "ArithmeticError", "AssertionError", "AttributeError", "BaseException", "BaseExceptionGroup",
  "BlockingIOError", "BrokenPipeError", "BufferError", "BytesWarning", "ChildProcessError",
  "ConnectionAbortedError", "ConnectionError", "ConnectionRefusedError", "ConnectionResetError",
  "DeprecationWarning", "EOFError", "EncodingWarning", "EnvironmentError", "Exception",
  "ExceptionGroup", "FileExistsError", "FileNotFoundError", "FloatingPointError",
  "FutureWarning", "GeneratorExit", "IOError", "ImportError", "ImportWarning",
  "IndentationError", "IndexError", "InterruptedError", "IsADirectoryError", "KeyError",
  "KeyboardInterrupt", "LookupError", "MemoryError", "ModuleNotFoundError", "NameError",
  "NotADirectoryError", "NotImplementedError", "OSError", "OverflowError",
  "PendingDeprecationWarning", "PermissionError", "ProcessLookupError", "RecursionError",
  "ReferenceError", "ResourceWarning", "RuntimeError", "RuntimeWarning", "StopAsyncIteration",
  "StopIteration", "SyntaxError", "SyntaxWarning", "SystemError", "SystemExit", "TabError",
  "TimeoutError", "TypeError", "UnboundLocalError", "UnicodeDecodeError", "UnicodeEncodeError",
  "UnicodeError", "UnicodeTranslateError", "UnicodeWarning", "UserWarning", "ValueError",
  "Warning", "ZeroDivisionError"
]

/-- The classes below which no class may stand. -/
def closedClasses : List String := ["bool", "memoryview", "range", "slice"]

/-- The functions. -/
def functions : List String := [
  "__build_class__", "__import__", "abs", "aiter", "all", "anext", "any", "ascii", "bin",
  "breakpoint", "callable", "chr", "compile", "delattr", "dir", "divmod", "eval", "exec",
  "format", "getattr", "globals", "hasattr", "hash", "hex", "id", "input", "isinstance",
  "issubclass", "iter", "len", "locals", "max", "min", "next", "oct", "open", "ord", "pow",
  "print", "repr", "round", "setattr", "sorted", "sum", "vars"
]

/-- The single values, each with its kind and with what it says to a class below it. -/
def values : List (String × String × String) := [
  ("None", "NoneType", "NoneType takes no arguments"),
  ("Ellipsis", "ellipsis", "EllipsisType takes no arguments"),
  ("NotImplemented", "NotImplementedType", "NotImplementedType takes no arguments"),
  ("False", "bool", "bool expected at most 1 argument, got 3"),
  ("True", "bool", "bool expected at most 1 argument, got 3"),
  ("__debug__", "bool", "bool expected at most 1 argument, got 3"),
  ("__name__", "str", "str() argument 'encoding' must be str, not tuple"),
  ("__package__", "str", "str() argument 'encoding' must be str, not tuple"),
  ("__file__", "str", "str() argument 'encoding' must be str, not tuple"),
  ("__cached__", "str", "str() argument 'encoding' must be str, not tuple"),
  ("__doc__", "NoneType", "NoneType takes no arguments"),
  ("__loader__", "SourceFileLoader",
    "FileLoader.__init__() takes 3 positional arguments but 4 were given"),
  ("__spec__", "ModuleSpec", "ModuleSpec.__init__() takes 3 positional arguments but 4 were given"),
  ("__builtins__", "dict", "dict expected at most 1 argument, got 3"),
  ("help", "_Helper", "_Helper() takes no arguments"),
  ("exit", "Quitter", "Quitter.__init__() takes 3 positional arguments but 4 were given"),
  ("quit", "Quitter", "Quitter.__init__() takes 3 positional arguments but 4 were given")
]

/-- The values that a module binds by itself, so that it can also let go of them. -/
def ownValues : List String := [
  "__name__", "__doc__", "__package__", "__loader__", "__spec__", "__file__", "__cached__",
  "__builtins__"
]

/-- Those of them that nothing stands for once the module has let go of them. -/
def onlyOwnValues : List String := ["__file__", "__cached__", "__builtins__"]

/-- The kind of a single value. -/
def kindOf? (name : String) : Option String := (values.lookup name).map (·.1)

/-- The single value of a name. -/
def value? (name : String) : Option Ambient := (values.lookup name).map fun v => .value v.2

/-- What a name stands for that no module has bound. -/
def ofName? (name : String) : Option Ambient :=
  if valueClasses.contains name || exceptionClasses.contains name then some .openClass
  else if closedClasses.contains name then some .closedClass
  else if functions.contains name then some .function
  else if onlyOwnValues.contains name then none
  else value? name

end Ambient

end LintHost.Plugin
