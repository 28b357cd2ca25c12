/-
Modules read from their descriptions.

A description is an object: its `members` are bound in order, `import_raise` is what importing the
module raises after them, and `syntax_error` says that it cannot be read as code at all.  A member
has a name, `attr`, a `kind`, and what its analyzer does: a plain `value`, a list `do` of actions
with the way they are handed over, or the name of a built-in `rule`.  A field that is missing, or
of another kind than it should be, counts as not given, and so does a member by whose name a module
answers for itself.
-/
import LintHost.Plugin.ExceptionKind
import LintHost.Json.Reader

namespace LintHost

namespace Json

/-- A text under a name. -/
def text? (name : String) (j : Json) : Option String :=
  match j.field? name with
  | some (.str s) => some s
  | _ => none

/-- Whether the value under a name is true. -/
def flag (name : String) (j : Json) : Bool :=
  match j.field? name with
  | some (.bool b) => b
  | _ => false

/-- The items under a name. -/
def items (name : String) (j : Json) : List Json :=
  match j.field? name with
  | some (.arr xs) => xs
  | _ => []

/-- An object under a name. -/
def object? (name : String) (j : Json) : Option Json :=
  match j.field? name with
  | some (.obj fields) => some (.obj fields)
  | _ => none

end Json

namespace Plugin

/-- What is raised. -/
def raisedOf (j : Json) : Raised :=
  raisedAs ((j.text? "type").getD "Exception") (j.field? "message")

/-- What is raised, if the field is there. -/
def raisedAt? (name : String) (j : Json) : Option Raised := (j.object? name).map raisedOf

/-- The effect of an action. -/
def effectOf? (j : Json) : Option Effect :=
  match j.field? "emit", j.field? "junk", raisedAt? "raise" j with
  | some fields, _, _ => some (.emit fields)
  | none, some v, _ => some (.junk v)
  | none, none, e => e.map .raise

/-- An action. -/
def actionOf? (j : Json) : Option Action :=
  (effectOf? j).map fun e => ⟨j.text? "if_path", j.text? "if_source", e⟩

/-- A way to hand items over. -/
def handoverOf : Option String → Handover
  | some "tuple" => .tuple
  | some "generator" => .generator
  | some "none" => .nothing
  | _ => .list

/-- The built-in rule of a name. -/
def ruleOf? : Option String → Option Body
  | some "no-print" => some .noPrint
  | some "todo-comments" => some .todoRemarks
  | _ => none

/-- What an analyzer does. -/
def behaviourOf (j : Json) : Behaviour :=
  let body :=
    match ruleOf? (j.text? "rule"), j.field? "value" with
    | some rule, _ => rule
    | none, some v => .value v
    | none, none =>
      .actions ((j.items "do").filterMap actionOf?) (handoverOf (j.text? "returns"))
  ⟨j.flag "async", body⟩

/-- A name that a field gives: any value as it shows, and nothing for an empty one. -/
def nameAt? (name : String) (j : Json) : Option String :=
  (j.field? name).map fun v => if v.toValue.isEmptyLike then "" else v.toValue.displayText

/-- How the marker is put to a function. -/
def markingOf (j : Json) : Marking :=
  match nameAt? "name" j, j.text? "style" with
  | some mark, _ => .named mark
  | none, some "called" => .called
  | none, _ => .bare

/-- What a member binds its name to. -/
def memberKindOf? (j : Json) : Option MemberKind :=
  match j.text? "kind" with
  | some "function" => some (.function (markingOf j) (behaviourOf j))
  | some "lambda" => some (.lambda (markingOf j) (behaviourOf j))
  | some "callable_object" =>
    some (.callableObject ((nameAt? "name" j).getD "") (behaviourOf j))
  | some "noncallable_object" => some (.inertObject ((nameAt? "name" j).getD ""))
  | some "plain" => some (.plainFunction (behaviourOf j))
  | some "plain_class" => some .plainClass
  | some "class" =>
    some (.analyzerClass (j.text? "base") (nameAt? "id" j) (j.flag "abstract")
      (raisedAt? "init_raise" j) (behaviourOf j))
  | some "alias" => (j.text? "of").map .alias
  | some "delete" => some .delete
  | _ => none

/-- A member. -/
def memberOf? (j : Json) : Option Member := do
  let name ← j.text? "attr"
  let kind ← memberKindOf? j
  some ⟨name, kind⟩

/-- A module. -/
def scriptOfJson (j : Json) : Script :=
  { members := ((j.items "members").filterMap memberOf?).filter fun m => m.name ∉ hookNames
    importRaise := raisedAt? "import_raise" j
    syntaxError := j.flag "syntax_error"
    ordinary := fun _ hm => of_decide_eq_true (List.mem_filter.mp hm).2 }

/-- The module of a file's text: an empty one binds nothing, and one that is no description cannot
be read as code. -/
def scriptOfText (text : List Char) : Script :=
  if text.all fun c => c = ' ' || c = '\n' then Script.empty
  else
    match Json.read? text with
    | some (.obj fields) => scriptOfJson (.obj fields)
    | _ => Script.unreadable

end Plugin

end LintHost
