/-
Importing a module: what its names are bound to.

A module starts with a few names that come from elsewhere, among them the base of all analyzers and
the mark of analyzer functions.  Its members bind names one after the other, and may rebind or
delete any of them: a class without a base of its own stands below whatever the base's name is bound
to at that point, and a function is given to whatever stands in the marker's place.  A name that is
not bound stops the import.

What a member makes keeps the name that the module had by then, its home.  A module can rebind that
name too, so that two things made in it need not have one home.
-/
import LintHost.Plugin.Behaviour
import LintHost.Plugin.Marker
import LintHost.Plugin.Module

namespace LintHost.Plugin

/-- A maker of instances that fails: the class that has it, and what it raises. -/
structure FailingMaker where
  owner : String
  raised : Raised
deriving Repr, Inhabited

/-- A class of analyzers with all that it inherits. -/
structure AnalyzerClass where
  name : String
  id : String
  isAbstract : Bool
  maker : Option FailingMaker
  behaviour : Behaviour
deriving Repr, Inhabited

/-- A class of the module that is no analyzer: its instances are exceptions of a kind, or empty. -/
structure PlainClass where
  name : String
  exceptionKind : Option String
  maker : Option FailingMaker
deriving Repr, Inhabited

/-- A function of the module: its own name, its mark if it has one, and what it does. -/
structure ModuleFunction where
  name : String
  mark : Option String
  behaviour : Behaviour
deriving Repr, Inhabited

/-- Why no class may stand below something. -/
inductive BaseRefusal where
  | function
  | ambient (a : Ambient) (name : String)
  | severities
deriving DecidableEq, Repr

/-- What is raised when a class is put below something that refuses it. -/
def BaseRefusal.raised (className : String) (r : BaseRefusal) : Raised :=
  .exception "TypeError" <|
    match r with
    | .function => "function() argument 'code' must be code, not str"
    | .ambient .closedClass name => "type '" ++ name ++ "' is not an acceptable base type"
    | .ambient (.value why) _ => why
    | .ambient _ _ => "cannot create 'builtin_function_or_method' instances"
    | .severities => "<enum '" ++ className ++ "'> cannot extend <enum 'Severity'>"

/-- What a name may be bound to. -/
inductive Object where
  | function (f : ModuleFunction)
  /-- A marked object of the module that can be called. -/
  | callable (mark : String) (b : Behaviour)
  /-- A class of analyzers of the module. -/
  | analyzerClass (c : AnalyzerClass)
  /-- Another class of the module. -/
  | plainClass (c : PlainClass)
  /-- The base of all analyzers. -/
  | analyzerBase
  /-- What marks functions as analyzers. -/
  | marker
  /-- The class of findings, and that of their severities. -/
  | findings
  | severities
  | ambient (name : String) (a : Ambient)
  | other
deriving Repr, Inhabited

/-- An object, and the name of the module it was made in; what comes from elsewhere has no home. -/
structure Bound where
  object : Object
  self : Identity
  home : Option Identity
deriving Repr, Inhabited

/-- The bindings of a module. -/
abbrev Bindings := List (String × Bound)

/-- The base of all analyzers: it does not say what to do with a unit. -/
def baseClass : AnalyzerClass := ⟨"Analyzer", "", true, none, ⟨false, .value .null⟩⟩

/-- The class of empty objects. -/
def rootName : String := "object"

/-- The name of the base of all analyzers, and that of the mark of functions. -/
def baseName : String := "Analyzer"
def markerName : String := "cli_analyzer"

/-- The name of what a module says of itself. -/
def remarkName : String := "__doc__"

/-- The names that a module imports from elsewhere. -/
def importedBindings : Bindings :=
  [(baseName, .analyzerBase), (markerName, .marker), ("Diagnostic", .findings),
    ("Severity", .severities)].map fun (name, o) => (name, ⟨o, .ambient name, none⟩)

/-- What a module starts with. It says nothing of itself. -/
def firstBindings : Bindings :=
  importedBindings ++ Ambient.ownValues.filterMap fun name =>
    (Ambient.value? name).map fun a =>
      (name, ⟨.ambient name a, if name = remarkName then nothing else .own name, none⟩)

/-- What is raised for a name that is not bound. -/
def unbound (name : String) : Raised :=
  .exception "NameError" ("name '" ++ name ++ "' is not defined")

/-- What a name stands for. -/
def resolveName (bs : Bindings) (name : String) : Except Raised Bound :=
  match bs.lookup name, Ambient.ofName? name with
  | some b, _ => .ok b
  | none, some a => .ok ⟨.ambient name a, .ambient name, none⟩
  | none, none => .error (unbound name)

/-- The mark that is given to a function of a name. -/
def Marking.markFor (name : String) : Marking → String
  | .named mark => if mark.isEmpty then name else mark
  | .bare | .called => name

/-- A class below another. -/
def AnalyzerClass.derive (base : AnalyzerClass) (name : String) (id : Option String)
    (isAbstract : Bool) (initRaise : Option Raised) (b : Behaviour) : AnalyzerClass :=
  { name
    id := id.getD base.id
    isAbstract := isAbstract && base.isAbstract
    maker := initRaise.map (⟨name, ·⟩) <|> base.maker
    behaviour := if isAbstract then base.behaviour else b }

/-- Why no class may stand below an object, if none may. -/
def Object.refusal : Object → Option BaseRefusal
  | .function _ | .marker => some .function
  | .ambient _ .openClass => none
  | .ambient name a => some (.ambient a name)
  | .severities => some .severities
  | _ => none

/-- The class of analyzers that an object is, if it is one. -/
def Object.asBase? : Object → Option AnalyzerClass
  | .analyzerClass c => some c
  | .analyzerBase => some baseClass
  | _ => none

/-- The class of empty objects or of exceptions that an object is, if it is one. -/
def Object.asPlainBase? : Object → Option PlainClass
  | .plainClass c => some c
  | .ambient name _ =>
    if name = rootName then some ⟨name, none, none⟩
    else if Ambient.exceptionClasses.contains name then
      some ⟨kindNamed name, some (kindNamed name), none⟩
    else none
  | _ => none

/-- Binds a name. -/
def bindName (name : String) (o : Bound) (bs : Bindings) : Bindings :=
  (name, o) :: bs.filter fun b => b.1 != name

/-- What is raised when a function stands in the place of the marker. -/
def ModuleFunction.raisedAsMarker (f : ModuleFunction) : Marking → Option Raised
  | .bare => f.behaviour.raisedOnFunction
  | .called =>
    some (.exception "TypeError"
      (f.name ++ "() missing 1 required positional argument: 'ctx'"))
  | .named _ =>
    some (.exception "TypeError" (f.name ++ "() got an unexpected keyword argument 'name'"))

/-- What is raised when a class of analyzers stands in the place of the marker. -/
def AnalyzerClass.raisedAsMarker (c : AnalyzerClass) (m : Marking) : Option Raised :=
  match c.isAbstract, c.maker, m with
  | true, none, _ => (Reception.ofAbstractClass c.name).raised? c.name m
  | true, some _, _ => some (.exception "TypeError" (Reception.abstractText c.name))
  | false, none, _ => (Reception.ofEmptyClass c.name).raised? c.name m
  | false, some maker, .called => some maker.raised
  | false, some maker, _ => (Reception.ofOwnMaker maker.owner .fine).raised? c.name m

/-- What is raised when a class that is no analyzer stands in the place of the marker. -/
def PlainClass.raisedAsMarker (c : PlainClass) (m : Marking) : Option Raised :=
  match c.maker, m with
  | some maker, .called => some maker.raised
  | some maker, _ => (Reception.ofOwnMaker maker.owner .fine).raised? c.name m
  | none, _ =>
    let r := match c.exceptionKind with
      | some kind => Reception.ofException kind c.name
      | none => Reception.ofEmptyClass c.name
    r.raised? c.name m

/-- What is raised when an object that is not the marker stands in its place. -/
def Object.raisedAsMarker (m : Marking) : Object → Option Raised
  | .function f => f.raisedAsMarker m
  | .callable _ b => if m = .bare then b.raisedOnFunction else none
  | .analyzerClass c => c.raisedAsMarker m
  | .analyzerBase => baseClass.raisedAsMarker m
  | .plainClass c => c.raisedAsMarker m
  | .findings => Reception.ofFindings.raised? "Diagnostic" m
  | .severities => Reception.ofSeverities.raised? "Severity" m
  | .ambient name _ => (Reception.ofAmbient name).raised? (kindNamed name) m
  | .marker | .other => none

/-- A member put to the mark. The mark is given by what the marker's name is bound to; anything but
the marker makes something else of the member. -/
def putMark (bs : Bindings) (m : Marking) (marked : Object) : Except Raised Object := do
  match (← resolveName bs markerName).object with
  | .marker => .ok marked
  | o =>
    match o.raisedAsMarker m with
    | some e => .error e
    | none => .ok .other

/-- A function with a mark. -/
def markFunction (bs : Bindings) (name : String) (m : Marking) (b : Behaviour) :
    Except Raised Object :=
  putMark bs m (.function ⟨name, some (m.markFor name), b⟩)

/-- A class below the object of a name. -/
def defineClass (bs : Bindings) (name baseName : String) (id : Option String) (isAbstract : Bool)
    (initRaise : Option Raised) (b : Behaviour) : Except Raised Object := do
  let base := (← resolveName bs baseName).object
  match base.asBase?, base.refusal, base.asPlainBase? with
  | some c, _, _ => .ok (.analyzerClass (c.derive name id isAbstract initRaise b))
  | none, some r, _ => .error (r.raised name)
  | none, none, some c =>
    .ok (.plainClass ⟨name, c.exceptionKind, initRaise.map (⟨name, ·⟩) <|> c.maker⟩)
  | none, none, none => .ok .other

/-- The home of what is made, with one for modules that have let go of their name. -/
def homeIn (bs : Bindings) (nameless : Identity) : Identity :=
  ((bs.lookup ownName).map (·.self)).getD nameless

/-- The home of a function, and that of a class. -/
def functionHome (bs : Bindings) : Identity := homeIn bs nothing
def classHome (bs : Bindings) : Identity := homeIn bs (.ambient ownName)

/-- What a member binds its name to; nothing where it takes the name away. The number is that of the
members before it. -/
def memberObject (bs : Bindings) (number : Nat) (name : String) :
    MemberKind → Except Raised (Option Bound)
  | .function marking b => some <$> ofFunction <$> markFunction bs name marking b
  | .lambda marking b => some <$> ofFunction <$> markFunction bs "<lambda>" marking b
  | .callableObject mark b =>
    some <$> ofClass <$>
      putMark bs (.named mark) (if mark.isEmpty then .other else .callable mark b)
  | .inertObject mark => some <$> ofClass <$> putMark bs (.named mark) .other
  | .plainFunction b => .ok (some (ofFunction (.function ⟨name, none, b⟩)))
  | .plainClass => .ok (some (ofClass (.plainClass ⟨name, none, none⟩)))
  | .analyzerClass base id isAbstract initRaise b =>
    some <$> ofClass <$> defineClass bs name (base.getD baseName) id isAbstract initRaise b
  | .alias target => some <$> resolveName bs target
  | .delete => if (bs.lookup name).isSome then .ok none else .error (unbound name)
where
  ofFunction (o : Object) : Bound := ⟨o, .made number, some (functionHome bs)⟩
  ofClass (o : Object) : Bound := ⟨o, .made number, some (classHome bs)⟩

/-- The bindings after a member. -/
def bindMember (bs : Bindings) (number : Nat) (m : Member) : Except Raised Bindings := do
  match ← memberObject bs number m.name m.kind with
  | some o => .ok (bindName m.name o bs)
  | none => .ok (bs.filter fun b => b.1 != m.name)

/-- Imports a module: its bindings, or what importing it raises. -/
def Script.bindings (s : Script) (fileName : String) : Except Raised Bindings :=
  if s.syntaxError then
    .error (.exception "SyntaxError" ("invalid syntax (" ++ fileName ++ ", line 1)"))
  else do
    let bs ← s.members.zipIdx.foldlM (fun bs (m, i) => bindMember bs i m) firstBindings
    match s.importRaise with
    | some e => .error e
    | none => .ok bs

end LintHost.Plugin
