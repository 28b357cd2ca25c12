/-
What a run that finishes is put together from.

Five stages lead from a command line to a report: the configuration is put together, the modules are
loaded, the target is resolved, the entry points are run over its units, and the status is chosen.
`run_composes` says what each stage hands to the next.  Three kinds of errors come together in the
result, and this is their order: modules that could not be loaded, in the order in which they were
asked for; analyzers that could not be made, in the order in which their modules were loaded; and
meetings that failed, in the order of the meetings.  None of them has a say in the status.
-/
import LintHost.Proofs.Command.Delivery
import LintHost.Proofs.Command.Request
import LintHost.Proofs.Config.Layers
import LintHost.Proofs.Engine.Accounting
import LintHost.Proofs.Plugin.Loading

namespace LintHost

open LintHost.Outcome

namespace Config

/-- What a configuration lists as analyzers: the items of a list as texts, or nothing, where the
value is as good as absent. -/
inductive Lists (limits : Limits) (entries : Entries) : List String → Prop
  | items {items : List Value} {texts : List String}
      (h : (Value.lookupName "analyzers" entries).map Value.view = some (.list items))
      (shown : List.Forall₂
        (fun v text => v.displayText? limits.digits limits.shownRoom = .ok text) items texts) :
      Lists limits entries texts
  | nothing (h : ∀ v ∈ Value.lookupName "analyzers" entries, v.view.isEmptyLike = true) :
      Lists limits entries []

theorem lists_of_listedAnalyzers {limits : Limits} {entries : Entries} {listed : List String}
    (hsound : problemOf entries = none) (h : listedAnalyzers limits entries = .ok listed) :
    Lists limits entries listed := by
  unfold listedAnalyzers at h
  split at h
  · rename_i items hview
    refine .items hview ((mapM_eq_ok_iff.mp h).imp ?_)
    intro v text htext
    cases hshown : v.displayText? limits.digits limits.shownRoom with
    | ok shown =>
      rw [hshown] at htext
      rw [Except.ok.inj htext]
    | error o =>
      rw [hshown] at htext
      cases htext
  · rename_i hview
    rw [← Except.ok.inj h]
    refine .nothing ?_
    intro v hv
    rw [Option.mem_def.mp hv] at hview
    refine ((problemOf_eq_none_iff.mp hsound).analyzers v hv).resolve_right ?_
    rintro ⟨items, hitems⟩
    exact hview items (congrArg some hitems)

/-- A configuration that is put together has nothing wrong with it. -/
theorem problemOf_of_load {w : Workspace} {dir : String} {named : Option String} {entries : Entries}
    (h : (load w dir named).outcome = .ok entries) : problemOf entries = none := by
  unfold load at h
  rw [Journal.bind_outcome] at h
  obtain ⟨base, -, h⟩ := bind_eq_ok_iff.mp h
  rw [Journal.bind_outcome] at h
  obtain ⟨entries', -, h⟩ := bind_eq_ok_iff.mp h
  cases hproblem : problemOf entries' with
  | none =>
    simp only [hproblem] at h
    rw [← Except.ok.inj h]
    exact hproblem
  | some problem =>
    simp only [hproblem] at h
    cases h

end Config

namespace Command

variable {w : Workspace} {m : Plugin.Modules} {args : List String}

theorem checkedSection_eq_ok {α : Type} {name model : String}
    {check : List (Value × Value) → Check α} {entries : Config.Entries} {a : α}
    (h : checkedSection name model check entries = .ok a) :
    check (Config.sectionEntries name entries) = .ok a := by
  unfold checkedSection at h
  simp only at h
  split_ifs at h
  split at h
  · rename_i hcheck
    rw [hcheck, Except.ok.inj h]
  · cases h

/-- What a plan is made of. -/
theorem plan_eq_ok {s : Settings} {p : Plan} (h : (plan w s).outcome = .ok p) :
    ∃ entries listed, (Config.load w "." s.config).outcome = .ok entries ∧
      TargetsConfig.checkFields (Config.sectionEntries "targets" entries) = .ok p.targets ∧
      Config.Lists w.interpreter.toLimits entries listed ∧ p.paths = listed ++ s.analyzers := by
  unfold plan at h
  rw [Journal.bind_outcome] at h
  obtain ⟨entries, hload, h⟩ := bind_eq_ok_iff.mp h
  rw [Journal.of_outcome] at h
  obtain ⟨targets, htargets, h⟩ := bind_eq_ok_iff.mp h
  obtain ⟨engine, -, h⟩ := bind_eq_ok_iff.mp h
  obtain ⟨output, -, h⟩ := bind_eq_ok_iff.mp h
  obtain ⟨format, -, h⟩ := bind_eq_ok_iff.mp h
  obtain ⟨listed, hlisted, h⟩ := bind_eq_ok_iff.mp h
  obtain rfl := Except.ok.inj h
  have hlists := Config.lists_of_listedAnalyzers (Config.problemOf_of_load hload) hlisted
  exact ⟨entries, listed, hload, checkedSection_eq_ok htargets, hlists, rfl⟩

/-- A run that got as far as its modules has jobs for them. -/
theorem Settles.one_le_jobs {s : Settings} {p : Plan} (h : Settles w args s p) :
    1 ≤ s.jobs.getD p.engine.jobs := by
  have hsettings : HaveJobs s := (ends_iff.mp (request_ends w args)).1 _ h.request s rfl
  have hplan : 1 ≤ p.engine.jobs := (ends_iff.mp (plan_ends w s)).1 p h.plan
  cases hs : s.jobs with
  | none => exact hplan
  | some n => exact hsettings n hs

/-- What an analysis comes to. -/
theorem analyze_eq_ok_iff {s : Settings} {p : Plan} {plugins : List Plugin.Loaded}
    {errors : List String} {result : AnalysisResult} (hjobs : 1 ≤ s.jobs.getD p.engine.jobs) :
    (analyze w s p plugins errors).outcome = .ok result ↔
      ∃ units slots, (Target.resolve w p.targets s.target).outcome = .ok units ∧
        Engine.Accounts w p.targets (Plugin.entryPointsOf plugins) (units.map Path.toString) slots ∧
        result = Engine.resultOf (errors ++ plugins.flatMap (·.warnings)) slots := by
  unfold analyze
  rw [Engine.runTarget_outcome, bind_eq_ok_iff]
  constructor
  · rintro ⟨units, hunits, hrun⟩
    obtain ⟨slots, hslots, hresult⟩ := (Engine.run_eq_ok_iff hjobs).mp hrun
    exact ⟨units, slots, hunits, hslots, hresult⟩
  · rintro ⟨units, slots, hunits, hslots, hresult⟩
    exact ⟨units, hunits, (Engine.run_eq_ok_iff hjobs).mpr ⟨slots, hslots, hresult⟩⟩

/-- How a result is put together, with the number of modules that were loaded for it. -/
inductive Composes (w : Workspace) (m : Plugin.Modules) (args : List String) (s : Settings)
    (p : Plan) : AnalysisResult → Nat → Prop
  | intro {given : List Given} {entries : Config.Entries} {listed : List String}
      {modules : List Plugin.LoadOutcome} {units : List Path} {slots : List Engine.SlotOutcome}
      -- The command line comes to settings, and the layers of the configuration to entries.
      (hparse : parse args = .ok ⟨given, []⟩) (settles : Settles w args s p)
      (hconfig : s.config = (valuesOf .config given).getLast?)
      (hload : (Config.load w "." s.config).outcome = .ok entries)
      -- Modules are asked for in the configuration, and then on the command line.
      (hlisted : Config.Lists w.interpreter.toLimits entries listed)
      (hpaths : p.paths = listed ++ valuesOf .analyzers given)
      (hmodules : Plugin.LoadsInTurn w ⟨m, ⟨[]⟩⟩ p.paths modules)
      (hcame : modules.map Plugin.LoadOutcome.path = p.paths)
      -- Their entry points meet the units of the target.
      (htargets : TargetsConfig.checkFields (Config.sectionEntries "targets" entries) =
        .ok p.targets)
      (htarget : some s.target = (valuesOf .target given).getLast?)
      (hunits : (Target.resolve w p.targets s.target).outcome = .ok units)
      (hslots : Engine.Accounts w p.targets (Plugin.entryPointsOf (Plugin.modulesOf modules))
        (units.map Path.toString) slots) :
      Composes w m args s p
        { diagnostics := slots.flatMap Engine.SlotOutcome.found
          errors := (Plugin.failuresOf modules).map LoadFailure.message ++
            (Plugin.modulesOf modules).flatMap (·.warnings) ++
            slots.filterMap Engine.SlotOutcome.error? }
        (Plugin.modulesOf modules).length

/-- **A run that finishes delivers the report about a result that is put together as it should be,
and its status is two without a module, one with findings, and nothing otherwise.** -/
theorem run_composes {result : AnalysisResult} {requested loaded : Nat}
    (h : Finishes w m args result requested loaded) :
    ∃ s p report, Composes w m args s p result loaded ∧
      reportOf w s p result = .ok report ∧ Delivers (run w m args) s (closed report) ∧
      (run w m args).escaped = none ∧
      (run w m args).status =
        if loaded = 0 then 2 else if result.diagnostics = [] then 0 else 1 := by
  obtain ⟨s, p, report, analyzes, -, hreport, hdelivers⟩ := delivers_of_finishes h
  refine ⟨s, p, report, ?_, hreport, hdelivers, (comesTo_of_finishes h).2, status_of_finishes h⟩
  obtain ⟨loads, hanalysis⟩ := analyzes
  obtain ⟨⟨given, extra⟩, hparse, -, rfl, hasks⟩ := request_eq_run_iff.mp loads.request
  obtain ⟨entries, listed, hload, htargets, hlists, hpaths⟩ := plan_eq_ok loads.plan
  obtain ⟨modules, hmodules, rfl, rfl⟩ := Plugin.loadAll_eq_ok_iff.mp loads.loading
  obtain ⟨units, slots, hunits, hslots, rfl⟩ := (analyze_eq_ok_iff loads.one_le_jobs).mp hanalysis
  rw [analyzers_of_asks (hasks .analyzers)] at hpaths
  exact .intro hparse loads.toSettles (config_of_asks (hasks .config)) hload hlists hpaths hmodules
    hmodules.map_path htargets (target_of_asks (hasks .target)).symm hunits hslots

/-! ### A run with all three sorts of errors -/

/-- A module that lists one name of its own. -/
def listing (name : String) (v : Plugin.View) : Plugin.Module where
  listed := .ok [name]
  inherited := .ok []
  value n := .ok (if n = name then some ⟨.ok (.own Plugin.ownName), .ok v⟩ else none)
  name := .ok (.own Plugin.ownName)

/-- The texts of three modules: one makes a finding, one has a class of which no instance can be
made, and one fails. Each lists nothing else. -/
def findingText : List Char :=
  ("from lintkit.core.interfaces import Diagnostic, Severity, cli_analyzer\n" ++
    "@cli_analyzer\n" ++
    "def find(ctx):\n" ++
    "    return [Diagnostic(rule_code='R', severity=Severity.ERROR, message='found')]\n" ++
    "def __dir__(): return ['find']\n").toList

def warningText : List Char :=
  ("from lintkit.core.interfaces import Analyzer\n" ++
    "class Bad(Analyzer):\n" ++
    "    def __init__(self): raise ValueError('bad')\n" ++
    "    def analyze(self, ctx): return None\n" ++
    "def __dir__(): return ['Bad']\n").toList

def failingText : List Char :=
  ("from lintkit.core.interfaces import cli_analyzer\n" ++
    "@cli_analyzer\n" ++
    "def fail(ctx): raise ValueError('no')\n" ++
    "def __dir__(): return ['fail']\n").toList

/-- What comes of running them. -/
def benchInterpreter : Interpreter :=
  { Interpreter.bare with
    execute := fun _ _ path _ =>
      if path.name = "find.py" then .ok (listing "find" (.object (some fun _ =>
        .now (.items [.item (.finding ⟨"R", .error, "found", "", none, []⟩)])) (some "find")))
      else if path.name = "warn.py" then .ok (listing "Bad" (.cls
        ⟨"Bad", "", true, false, .error (.exception "ValueError" "bad")⟩))
      else .ok (listing "fail" (.object (some fun _ =>
        .now (.raised (.exception "ValueError" "no"))) (some "fail"))) }

/-- A source, the modules, and a configuration that names a module which is not there. -/
def bench : Workspace :=
  ⟨.dir [(".lintkit.yaml", .file ⟨Text.Utf8.encode "analyzers: [gone.py]\n".toList⟩),
    ("find.py", .file ⟨Text.Utf8.encode findingText⟩),
    ("warn.py", .file ⟨Text.Utf8.encode warningText⟩),
    ("fail.py", .file ⟨Text.Utf8.encode failingText⟩),
    ("m.py", .file ⟨[]⟩)], [], [], benchInterpreter⟩

def benchArgs : List String :=
  ["--analyzers", "find.py", "--analyzers", "warn.py", "--analyzers", "fail.py", "--target", "m.py"]

/-- A run of status one that prints something, and that no failure escapes from, has finished. -/
theorem finishes_of_printed (hstatus : (run w m args).status = 1)
    (hescaped : (run w m args).escaped = none) (hstdout : (run w m args).stdout ≠ "") :
    ∃ result requested loaded, Finishes w m args result requested loaded := by
  rcases status_eq_one_iff.mp hstatus with ⟨result, requested, loaded, h, -⟩ | ⟨stage, f, h⟩
  · exact ⟨result, requested, loaded, h⟩
  · -- Nothing is printed before the report, and the report is not where the user interrupts a run.
    exfalso
    have hinterrupt : f = .interrupted keyboardInterrupt := by
      by_contra hother
      rw [escaped_eq_some_iff.mpr ⟨hother, stage, h⟩] at hescaped
      cases hescaped
    have hearly : stage ≠ .report := by
      rintro rfl
      subst hinterrupt
      exact Bool.false_ne_true (lets_of_stops h)
    exact hstdout (traceless_of_stops h hearly).1.stdout

/-- One module is not there, and of three that are, one has a class without instances, one fails,
and one makes a finding: the report has a line for each, in this order. -/
theorem run_composes_of_bench :
    ∃ s p report result requested loaded,
      Finishes bench default benchArgs result requested loaded ∧
      Composes bench default benchArgs s p result loaded ∧
      reportOf bench s p result = .ok report ∧
      (run bench default benchArgs).status = 1 ∧
      (run bench default benchArgs).stdout =
        "Error: Analyzer module not found: gone.py\n" ++
        "Error: Failed to create analyzer warn.Bad from warn.py: bad\n" ++
        "Error: Analyzer 'fail.fail' failed on /m.py: ValueError: no\n" ++
        "[R] error: found\n" := by
  obtain ⟨hstatus, hescaped, hstdout⟩ :
      (run bench default benchArgs).status = 1 ∧
        (run bench default benchArgs).escaped = none ∧
        (run bench default benchArgs).stdout =
          "Error: Analyzer module not found: gone.py\n" ++
          "Error: Failed to create analyzer warn.Bad from warn.py: bad\n" ++
          "Error: Analyzer 'fail.fail' failed on /m.py: ValueError: no\n" ++
          "[R] error: found\n" := by
    decide +kernel
  obtain ⟨result, requested, loaded, h⟩ :=
    finishes_of_printed hstatus hescaped (hstdout.trans_ne (by decide))
  obtain ⟨s, p, report, hcomposes, hreport, -⟩ := run_composes h
  exact ⟨s, p, report, result, requested, loaded, h, hcomposes, hreport, hstatus, hstdout⟩

end Command

end LintHost
