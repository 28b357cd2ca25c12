/-
What a described analyzer answers to a unit.

Actions run in order, each under its conditions, as one stream of items.  Handed over as a list or
a tuple they all run before the first item is looked at; handed over one by one they run while the
items are gone through, so that what comes before a failure is seen first.  Raising the end of an
iteration inside the stream is a failure of its own.
-/
import LintHost.Plugin.Script
import LintHost.Rules
import LintHost.Diagnostic.Validation

namespace LintHost.Plugin

open LintHost.Text

/-- A text with its placeholders filled in. -/
def fillText (c : Context) (s : String) : String :=
  let project := match c.project with
    | some p => if p.isEmpty then "none" else p
    | none => "none"
  let fill (mark : String) (text s : List Char) : List Char := replace mark.toList text s
  String.ofList <|
    fill "$SOURCE" c.source.toList <|
    fill "$LEN" (decimal c.source.toList.length) <|
    fill "$PROJECT" project.toList <|
    fill "$PATH" c.path.toList s.toList

mutual

/-- Data with the placeholders of its texts filled in. -/
def fill (c : Context) : Json → Json
  | .str s => .str (fillText c s)
  | .arr items => .arr (fillItems c items)
  | .obj fields => .obj (fillFields c fields)
  | j => j

def fillItems (c : Context) : List Json → List Json
  | [] => []
  | x :: rest => fill c x :: fillItems c rest

def fillFields (c : Context) : List (String × Json) → List (String × Json)
  | [] => []
  | (k, x) :: rest => (k, fill c x) :: fillFields c rest

end

/-- What is raised for fields that make no finding. -/
def badFinding (problems : List Problem) : Raised :=
  let entries := problems.map fun p => p.dotted ++ " [" ++ p.fault.code ++ "]"
  .exception "ValidationError"
    (integerString problems.length ++ " in Diagnostic: " ++ "; ".intercalate entries)

/-- Whether the conditions of an action hold. -/
def Action.applies (a : Action) (c : Context) : Bool :=
  (a.ifPath.all fun tail => endsWith c.path.toList tail.toList)
    && (a.ifSource.all fun part => contains c.source.toList part.toList)

/-- The kind of a value, as messages say it. -/
def kindOf (j : Json) : String := j.toValue.kind

/-- What is raised out of a stream of items: the end of an iteration may not be raised inside. -/
def outOfStream : Raised → Raised
  | .exception "StopIteration" _ => .exception "RuntimeError" "generator raised StopIteration"
  | e => e

/-- What an action hands over. -/
def Effect.deliver (c : Context) : Effect → Delivery
  | .emit fields =>
    match Diagnostic.check (fill c fields).toValue with
    | .ok d => .item (.finding d)
    | .bad problems => .raise (badFinding problems)
  | .junk v => .item (.other (kindOf v))
  | .raise e => .raise (outOfStream e)

/-- What the actions that apply hand over, up to the first that raises. -/
def deliveries (c : Context) : List Action → List Delivery
  | [] => []
  | a :: rest =>
    if a.applies c then
      match a.effect.deliver c with
      | .raise e => [.raise e]
      | d => d :: deliveries c rest
    else deliveries c rest

/-- What is raised among deliveries, if anything is. -/
def raisedIn : List Delivery → Option Raised
  | [] => none
  | .raise e :: _ => some e
  | .item _ :: rest => raisedIn rest

/-- A plain value as an outcome: an empty one is none, texts give characters and mappings keys. -/
def valueOutcome (j : Json) : CallOutcome :=
  if j.toValue.isEmptyLike then .nothing
  else
    let others (kinds : List String) : CallOutcome := .items (kinds.map fun k => .item (.other k))
    match j with
    | .arr items => others (items.map kindOf)
    | .str s => others (s.toList.map fun _ => "str")
    | .obj fields => others (fields.map fun _ => "str")
    | j => .notIterable (kindOf j)

/-- Deliveries made before any is looked at. -/
def eagerly (handover : Handover) (ds : List Delivery) : CallOutcome :=
  match raisedIn ds with
  | some e => .raised e
  | none => if handover = .nothing then .nothing else .items ds

/-- Findings as an outcome. -/
def findings (ds : List Diagnostic) : CallOutcome := .items (ds.map fun d => .item (.finding d))

/-- The outcome for a unit. -/
def Body.outcome (c : Context) : Body → CallOutcome
  | .value v => valueOutcome v
  | .actions steps .generator => .items (deliveries c steps)
  | .actions steps handover => eagerly handover (deliveries c steps)
  | .noPrint => findings (Rules.noPrint c)
  | .todoRemarks => findings (Rules.todoRemarks c)

mutual

/-- Whether data hold a text, where placeholders may stand. -/
def holdsText : Json → Bool
  | .str _ => true
  | .arr items => someHoldsText items
  | .obj fields => someFieldHoldsText fields
  | _ => false

def someHoldsText : List Json → Bool
  | [] => false
  | x :: rest => holdsText x || someHoldsText rest

def someFieldHoldsText : List (String × Json) → Bool
  | [] => false
  | (_, x) :: rest => holdsText x || someFieldHoldsText rest

end

/-- The part of a unit that an action asks for first, if it asks for any. -/
def Action.firstPart? (a : Action) : Option String :=
  match a.ifPath, a.ifSource, a.effect with
  | some _, _, _ => some "path"
  | none, some _, _ => some "source"
  | none, none, .emit fields => if holdsText fields then some "path" else none
  | none, none, _ => none

/-- What is raised for a part that a function does not have. -/
def noPart (part : String) : Raised :=
  .exception "AttributeError" ("'function' object has no attribute '" ++ part ++ "'")

/-- A unit without anything in it. -/
def Context.blank : Context := ⟨"", "", none⟩

/-- What the actions raise that get a function in the place of a unit. -/
def raisedOnFunction : List Action → Option Raised
  | [] => none
  | a :: rest =>
    match a.firstPart? with
    | some part => some (noPart part)
    | none =>
      match a.effect.deliver Context.blank with
      | .raise e => some e
      | .item _ => raisedOnFunction rest

/-- What is raised by a call with a function in the place of a unit. A coroutine and items that are
handed over one by one do not get that far. -/
def Behaviour.raisedOnFunction (b : Behaviour) : Option Raised :=
  match b.deferred, b.body with
  | true, _ | false, .value _ | false, .actions _ .generator => none
  | false, .actions steps _ => Plugin.raisedOnFunction steps
  | false, .noPrint | false, .todoRemarks => some (noPart "source")

/-- The answer to a unit. -/
def Behaviour.call (b : Behaviour) (c : Context) : Response :=
  if b.deferred then .later (b.body.outcome c) else .now (b.body.outcome c)

end LintHost.Plugin
