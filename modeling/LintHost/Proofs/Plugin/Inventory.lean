/-
What loading a module lists, and what it only warns of.

Loading a module gives the names, the warnings and the notes of the one exact inventory of what the
module owns: `load_inventory`.  That rests on the module, which has to answer whatever it is asked.
What it raises instead goes through, and then nothing comes of the module, though it was imported.

A described module answers unless it has let go of its own name or a class raises what cannot be
told, `answers_module_iff`.  What it owns that is listed was made by one of its members, by
`Traced.marks` and `Traced.defines`.
-/
import LintHost.Plugin.Described
import LintHost.Proofs.Plugin.Findings
import LintHost.Proofs.Plugin.History
import LintHost.Proofs.Plugin.Provenance

namespace LintHost.Plugin

open LintHost.Outcome
open LintHost.Table

variable {m : Module}

/-! ### Described modules -/

section Described

variable {bs : Bindings} {attr : String} {v : View}

theorem names_module_iff : bs.module.Names attr ↔ ∃ b, bs.lookup attr = some b := by
  rw [Module.names_iff rfl rfl, List.append_nil, ← Option.isSome_iff_exists,
    List.lookup_isSome_iff, List.mem_map]
  simp only [beq_iff_eq, @eq_comm _ attr]

theorem has_module_iff {a : Attribute} :
    bs.module.Has attr a ↔ ∃ b, bs.lookup attr = some b ∧ a = b.attribute := by
  rw [Module.Has, names_module_iff]
  constructor
  · rintro ⟨⟨b, hb⟩, ha⟩
    have hvalue : (bs.lookup attr).map Bound.attribute = some a := Except.ok.inj ha
    rw [hb] at hvalue
    exact ⟨b, hb, (Option.some.inj hvalue).symm⟩
  · rintro ⟨b, hb, rfl⟩
    refine ⟨⟨b, hb⟩, ?_⟩
    show Except.ok ((bs.lookup attr).map Bound.attribute) = _
    rw [hb]
    rfl

theorem name_module_eq_ok_iff {home : Identity} :
    bs.module.name = .ok home ↔ ∃ name, bs.lookup ownName = some name ∧ name.self = home := by
  unfold Bindings.module
  cases bs.lookup ownName with
  | none => simp
  | some name => simp

/-- What a described module owns: what it has bound that has the module's own name for its home. -/
theorem owns_module_iff : bs.module.Owns attr v ↔
    ∃ b name, bs.lookup attr = some b ∧ bs.lookup ownName = some name ∧
      b.home.getD nothing = name.self ∧ v = b.object.view := by
  unfold Module.Owns Module.Shows
  simp only [has_module_iff, name_module_eq_ok_iff]
  constructor
  · rintro ⟨_, ⟨b, hb, rfl⟩, home, hhome, ⟨name, hname, rfl⟩, hview⟩
    exact ⟨b, name, hb, hname, Except.ok.inj hhome, (Except.ok.inj hview).symm⟩
  · rintro ⟨b, name, hb, hname, hhome, rfl⟩
    exact ⟨_, ⟨b, hb, rfl⟩, _, congrArg Except.ok hhome, ⟨name, hname, rfl⟩, rfl⟩

/-- A described module answers where it still has its name, or has nothing else either, and the
classes that it owns answer. -/
theorem answers_module_iff : bs.module.Answers ↔
    ((∃ attr b, bs.lookup attr = some b) → ∃ name, bs.lookup ownName = some name) ∧
      ∀ attr v c, bs.module.Owns attr v → v.IsConcrete c → c.Answers := by
  constructor
  · intro h
    refine ⟨?_, h.classes⟩
    rintro ⟨attr, b, hb⟩
    obtain ⟨-, name, hname⟩ := h.homes attr b.attribute (has_module_iff.mpr ⟨b, hb, rfl⟩)
    obtain ⟨bound, hbound, -⟩ := name_module_eq_ok_iff.mp hname
    exact ⟨bound, hbound⟩
  · rintro ⟨hname, hclasses⟩
    refine ⟨⟨⟨_, rfl⟩, ⟨_, rfl⟩, fun attr _ => ⟨_, rfl⟩⟩, fun attr a ha => ?_,
      fun attr a home ha _ _ => ?_, hclasses⟩
    · obtain ⟨b, hb, rfl⟩ := has_module_iff.mp ha
      obtain ⟨name, hbound⟩ := hname ⟨attr, b, hb⟩
      exact ⟨⟨_, rfl⟩, name.self, name_module_eq_ok_iff.mpr ⟨name, hbound, rfl⟩⟩
    · obtain ⟨b, -, rfl⟩ := has_module_iff.mp ha
      exact ⟨_, rfl⟩

/-- What has a mark has it as a function, or as an object of the module. -/
theorem Object.view_hasMark {o : Object} {x : Marked} (h : o.view.HasMark x) :
    ∃ b : Behaviour, x.analyze = b.call ∧
      ((∃ name, o = .function ⟨name, some x.mark, b⟩) ∨ o = .callable x.mark b) := by
  unfold View.HasMark Object.view at h
  split at h
  · rename_i f
    obtain ⟨hcall, hmark⟩ := View.object.inj h
    refine ⟨f.behaviour, (Option.some.inj hcall).symm, Or.inl ⟨f.name, ?_⟩⟩
    rw [← hmark]
  · rename_i mark b
    obtain ⟨hcall, hmark⟩ := View.object.inj h
    refine ⟨b, (Option.some.inj hcall).symm, Or.inr ?_⟩
    rw [Option.some.inj hmark]
  all_goals cases h

/-- A concrete class of analyzers is one of the module. -/
theorem Object.view_isConcrete {o : Object} {c : ClassView} (h : o.view.IsConcrete c) :
    ∃ d : AnalyzerClass, o = .analyzerClass d ∧ c = d.view := by
  obtain ⟨hview, hanalyzer, habstract⟩ := h
  cases o with
  | analyzerClass d => exact ⟨d, rfl, (View.cls.inj hview).symm⟩
  | analyzerBase =>
    obtain rfl := View.cls.inj hview
    cases (habstract : true = false)
  | plainClass | findings | severities =>
    obtain rfl := View.cls.inj hview
    cases (hanalyzer : false = true)
  | ambient name a =>
    cases a with
    | openClass | closedClass =>
      obtain rfl := View.cls.inj hview
      cases (hanalyzer : false = true)
    | function | value => cases hview
  | function | callable | marker | other => cases hview

variable {members : List Member}

/-- **A marked callable that a module owns was marked by one of its members.** -/
theorem Traced.marks (h : Traced members bs) (hown : bs.module.Owns attr v) {x : Marked}
    (hx : v.HasMark x) : ∃ m ∈ members, ∃ b, m.Marks x.mark b ∧ x.analyze = b.call := by
  obtain ⟨bound, name, hbound, -, -, rfl⟩ := owns_module_iff.mp hown
  obtain ⟨b, hcall, hobject⟩ := Object.view_hasMark hx
  cases h.origin _ (mem_of_lookup hbound) with
  | elsewhere hforeign =>
    have hnone := hforeign.object
    rcases hobject with ⟨own, hobject⟩ | hobject <;> (rw [hobject] at hnone; exact hnone.elim)
  | @made n m home hself hmember hmakes hhome =>
    refine ⟨m, List.mem_of_getElem? hmember, b, ?_, hcall⟩
    rcases hobject with ⟨own, hobject⟩ | hobject
    · rw [hobject] at hmakes
      exact hmakes x.mark rfl
    · rw [hobject] at hmakes
      exact hmakes

/-- **A concrete class of analyzers that a module owns was defined by one of its members.** -/
theorem Traced.defines (h : Traced members bs) (hown : bs.module.Owns attr v) {c : ClassView}
    (hc : v.IsConcrete c) : ∃ m ∈ members, ∃ d : AnalyzerClass, m.Defines d ∧ c = d.view := by
  obtain ⟨bound, name, hbound, -, -, rfl⟩ := owns_module_iff.mp hown
  obtain ⟨d, hobject, rfl⟩ := Object.view_isConcrete hc
  cases h.origin _ (mem_of_lookup hbound) with
  | elsewhere hforeign =>
    have hnone := hforeign.object
    rw [hobject] at hnone
    exact hnone.elim
  | @made n m home hself hmember hmakes hhome =>
    rw [hobject] at hmakes
    exact ⟨m, List.mem_of_getElem? hmember, d, hmakes, rfl⟩

/-- What a module has made that has kept its name is its own. -/
theorem Steady.owns (h : Steady bs) (ht : Traced members bs) {b : Bound} {n : Nat}
    (hb : bs.lookup attr = some b) (hmade : b.self = .made n) :
    bs.module.Owns attr b.object.view := by
  obtain ⟨name, hname, -⟩ := h.name
  have hhome := h.home_of_made ht hname (mem_of_lookup hb) hmade
  exact owns_module_iff.mpr ⟨b, name, hb, hname, by rw [hhome, Option.getD_some], rfl⟩

end Described

/-! ### Loading a module -/

variable {w : Workspace} {s : LoadState} {path : String}

theorem load_of_module (hfile : w.isFileText path = true)
    (himport : importFile w path (nameFor s.modules.counter path) = .ok m) :
    (load w s path).journal = (do
      let found ← discover m (Path.ofString path).stem (Path.ofString path).toString
      Journal.note (.pluginLoaded path (found.entryPoints.map (·.name)))
      pure ⟨path, found.entryPoints, found.warnings⟩) := by
  rw [load_of_file hfile, himport]
  rfl

theorem load_ok_iff (hfile : w.isFileText path = true)
    (himport : importFile w path (nameFor s.modules.counter path) = .ok m) :
    (∃ plugin, (load w s path).journal.outcome = .ok plugin) ↔ m.Answers := by
  rw [load_of_module hfile himport, Journal.bind_outcome,
    ← @discover_ok_iff m (Path.ofString path).stem (Path.ofString path).toString]
  constructor
  · rintro ⟨plugin, h⟩
    obtain ⟨found, hfound, -⟩ := bind_eq_ok_iff.mp h
    exact ⟨found, hfound⟩
  · rintro ⟨found, hfound⟩
    exact ⟨_, bind_eq_ok_iff.mpr ⟨found, hfound, rfl⟩⟩

/-- **Loading a module that is imported comes to something exactly where the module answers; where
it does not, what it raises goes through.  Where it answers, loading gives what the module owns and
nothing else: the entry points of its marked callables, then those of its concrete classes that make
an instance, each group in the order of the attributes and one for each attribute; a warning and a
note for each attribute of a class that fails, in that order.**

**A described module answers where it has its own name left and its classes answer.  What it owns
that is listed was marked or defined by one of its members, with the name that the member gives; and
where no member touches the name of the module, it owns all that its members have made.** -/
theorem load_inventory (hfile : w.isFileText path = true)
    (himport : importFile w path (nameFor s.modules.counter path) = .ok m) :
    let p := Path.ofString path
    ((∃ plugin, (load w s path).journal.outcome = .ok plugin) ↔ m.Answers) ∧
      (¬m.Answers → ∃ e : Escape, (load w s path).journal.outcome = .error e.failure) ∧
      (m.Answers → ∃ i : Inventory, i.Exact m ∧
        (load w s path).journal.outcome =
          .ok ⟨path, i.entryPoints p.stem, i.warnings p.stem p.toString⟩ ∧
        (load w s path).journal.events =
          i.notes p.stem ++ [.pluginLoaded path ((i.entryPoints p.stem).map (·.name))]) ∧
      ∀ script fileName bs, Script.bindings script fileName = .ok bs → m = bs.module →
        (m.Answers ↔
          ((∃ attr b, bs.lookup attr = some b) → ∃ name, bs.lookup ownName = some name) ∧
            ∀ attr v c, m.Owns attr v → v.IsConcrete c → c.Answers) ∧
        (∀ attr v, m.Owns attr v →
          (∀ x, v.HasMark x →
            ∃ member ∈ script.members, ∃ b, member.Marks x.mark b ∧ x.analyze = b.call) ∧
          ∀ c, v.IsConcrete c →
            ∃ member ∈ script.members, ∃ d : AnalyzerClass, member.Defines d ∧ c = d.view) ∧
        ((∀ member ∈ script.members, member.name ≠ ownName) →
          ∀ attr b n, bs.lookup attr = some b → b.self = .made n → m.Owns attr b.object.view) := by
  intro p
  refine ⟨load_ok_iff hfile himport, fun h => ?_, fun h => ?_, ?_⟩
  · cases houtcome : (load w s path).journal.outcome with
    | ok plugin => exact absurd ((load_ok_iff hfile himport).mp ⟨plugin, houtcome⟩) h
    | error f =>
      rw [load_of_file hfile, himport] at houtcome
      obtain ⟨e, rfl⟩ := failsWith_iff.mp (imported_escapes _ _ m) f houtcome
      exact ⟨e, rfl⟩
  · obtain ⟨i, hexact, hdiscover⟩ := discover_of_answers h
    refine ⟨i, hexact, ?_, ?_⟩ <;> rw [load_of_module hfile himport, hdiscover] <;> rfl
  · rintro script fileName bs hbound rfl
    have htraced := Script.bindings_traced hbound
    refine ⟨answers_module_iff, fun attr v hown => ⟨fun x => htraced.marks hown, fun c =>
      htraced.defines hown⟩, fun htouched attr b n hb hmade => ?_⟩
    exact (Script.bindings_steady hbound htouched).owns htraced hb hmade

/-- Does nothing. -/
def idle : Behaviour := ⟨false, .value .null⟩

/-- A module with something of every sort. -/
def crateText : List UInt8 := Text.Utf8.encode ("\n".intercalate [
  "from lintkit.core.interfaces import Analyzer, Diagnostic, Severity, cli_analyzer",
  "@cli_analyzer",
  "def work(ctx): return None",
  "@cli_analyzer(name='no-todos')",
  "def check(ctx): return None",
  "class Good(Analyzer):",
  "    id = 'good-id'",
  "    def analyze(self, ctx): return None",
  "class Bad(Analyzer):",
  "    def __init__(self): raise SystemExit(3)",
  "    def analyze(self, ctx): return None",
  "Also = Bad",
  "class Open(Analyzer): pass",
  "class Heir(Open):",
  "    def analyze(self, ctx): return None",
  "Base = Analyzer",
  "def helper(ctx): return None", ""]).toList

def crateScript : Script where
  members := [⟨"work", .function .bare idle⟩, ⟨"check", .function (.named "no-todos") idle⟩,
    ⟨"Good", .analyzerClass none (some "good-id") false none idle⟩,
    ⟨"Bad", .analyzerClass none none false (some (.exception "SystemExit" "3")) idle⟩,
    ⟨"Also", .alias "Bad"⟩, ⟨"Open", .analyzerClass none none true none idle⟩,
    ⟨"Heir", .analyzerClass (some "Open") none false none idle⟩, ⟨"Base", .alias "Analyzer"⟩,
    ⟨"helper", .plainFunction idle⟩]
  importRaise := none
  syntaxError := false

/-- A module with a marked function that lets go of its name. -/
def unnamedText : List UInt8 := Text.Utf8.encode ("\n".intercalate [
  "from lintkit.core.interfaces import Analyzer, Diagnostic, Severity, cli_analyzer",
  "@cli_analyzer",
  "def f(ctx): return None",
  "del __name__", ""]).toList

def unnamedScript : Script where
  members := [⟨"f", .function .bare idle⟩, ⟨ownName, .delete⟩]
  importRaise := none
  syntaxError := false

def crate : Workspace :=
  ⟨.dir [("p.py", .file ⟨crateText⟩)], [], [], .ofScripts .usual fun _ => crateScript⟩

def unnamedCrate : Workspace :=
  ⟨.dir [("q.py", .file ⟨unnamedText⟩)], [], [], .ofScripts .usual fun _ => unnamedScript⟩

def crateBindings : Bindings := (crateScript.bindings "p.py").toOption.getD []

def unnamedBindings : Bindings := (unnamedScript.bindings "q.py").toOption.getD []

theorem crate_bound : crateScript.bindings "p.py" = .ok crateBindings :=
  eq_ok_of_isOk (by decide +kernel) []

theorem unnamed_bound : unnamedScript.bindings "q.py" = .ok unnamedBindings :=
  eq_ok_of_isOk (by decide +kernel) []

theorem crate_imported (name : String) :
    importFile crate "p.py" name = .ok crateBindings.module := by
  have hrun : importFile crate "p.py" name = Bindings.module <$> crateScript.bindings "p.py" := rfl
  rw [hrun, crate_bound]
  rfl

theorem unnamed_imported (name : String) :
    importFile unnamedCrate "q.py" name = .ok unnamedBindings.module := by
  have hrun : importFile unnamedCrate "q.py" name =
      Bindings.module <$> unnamedScript.bindings "q.py" := rfl
  rw [hrun, unnamed_bound]
  rfl

def crateGathered : List (String × Attribute) :=
  (gather crateBindings.module.value [] (crateBindings.map Prod.fst ++ [])).toOption.getD []

def crateItems : List (String × Item) :=
  (crateBindings.module.items (crateGathered.insertionSort NotAfter)).toOption.getD []

theorem crate_members :
    crateBindings.module.members = .ok (crateGathered.insertionSort NotAfter) := by
  have hgathered : gather crateBindings.module.value [] (crateBindings.map Prod.fst ++ []) =
      .ok crateGathered := eq_ok_of_isOk (by decide +kernel) []
  -- sorting by merging does not evaluate in the kernel
  rw [← inOrder_eq_insertionSort (mem_gather_iff hgathered).1]
  exact Module.members_eq_ok_iff.mpr ⟨_, _, _, rfl, rfl, hgathered, rfl⟩

theorem crate_items : crateBindings.module.items (crateGathered.insertionSort NotAfter) =
    .ok crateItems := eq_ok_of_isOk (by decide +kernel) []

theorem unnamed_not_answers : ¬unnamedBindings.module.Answers := by
  intro h
  have hname : unnamedBindings.lookup ownName = none := by decide +kernel
  have hbound : (unnamedBindings.lookup "f").isSome = true := by decide +kernel
  obtain ⟨b, hb⟩ := Option.isSome_iff_exists.mp hbound
  obtain ⟨name, hsome⟩ := (answers_module_iff.mp h).1 ⟨"f", b, hb⟩
  rw [hname] at hsome
  cases hsome

/-- The module with something of every sort gives its inventory, and nothing comes of the one that
has let go of its name, though it has a marked function. -/
theorem load_inventory_of_crate :
    (∃ i : Inventory, i.Exact crateBindings.module ∧
      (load crate (.fresh 0) "p.py").journal.outcome =
        .ok ⟨"p.py", i.entryPoints "p", i.warnings "p" "p.py"⟩ ∧
      (i.entryPoints "p").map (·.name) = ["p.no-todos", "p.work", "p.good-id", "p.Heir"] ∧
      i.warnings "p" "p.py" = ["Failed to create analyzer p.Bad from p.py: 3",
        "Failed to create analyzer p.Bad from p.py: 3"]) ∧
      ∃ e : Escape, (load unnamedCrate (.fresh 0) "q.py").journal.outcome = .error e.failure := by
  have hpath : (Path.ofString "p.py").stem = "p" ∧ (Path.ofString "p.py").toString = "p.py" := by
    decide +kernel
  obtain ⟨-, -, hlisted, -⟩ := load_inventory (s := .fresh 0) rfl (crate_imported _)
  obtain ⟨-, hescapes, -, -⟩ := load_inventory (s := .fresh 0) rfl (unnamed_imported _)
  have hanswers := answers_of_items crate_members crate_items
  obtain ⟨i, hexact, houtcome, -⟩ := hlisted hanswers
  rw [hpath.1, hpath.2] at houtcome
  have hi : i = inventoryOf crateItems := hexact.unique
    (inventoryOf_exact (Module.lists_items crate_members crate_items) hanswers.classes)
  refine ⟨⟨i, hexact, houtcome, ?_, ?_⟩, hescapes unnamed_not_answers⟩
  · rw [hi]
    decide +kernel
  · rw [hi]
    decide +kernel

end LintHost.Plugin
