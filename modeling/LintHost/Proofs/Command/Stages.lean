/-
What the stages of a run fail with.

A run reads its command line, settles its configuration, loads analyzers, analyzes and reports.
`Stage.lets` lists for each stage the failures that it lets through.  A failure that the host has an
answer to is in no list: a configuration that breaks the notation or a rule, a module that cannot be
loaded, a format that nobody knows, a number of jobs below one.  What is listed is what nobody
answers.

Every operation is gone through once, and what it can fail with is put together from what its parts
can fail with.  One failure takes an invariant: that there is never less than one job comes from
both places where a number of jobs is read, `request_ends` and `plan_ends`.
-/
import LintHost.Command.Run
import LintHost.Proofs.Dump
import LintHost.Proofs.Engine.Preparing
import LintHost.Proofs.Engine.Settling
import LintHost.Proofs.Plugin.Loading
import LintHost.Proofs.Target.Resolution

namespace LintHost.Command

open LintHost.Outcome

/-- The stages of a run. -/
inductive Stage where
  | commandLine
  | settling
  | loading
  | analysis
  | report
deriving DecidableEq, Repr

/-- The failures of a text as a path. -/
def ofPaths : Failure → Bool
  | .nulInPath | .halfInText => true
  | _ => false

/-- The failures of finding and opening a file. -/
def ofFiles : Failure → Bool
  | .os _ => true
  | f => ofPaths f

/-- The failures of a file in the notation, but for a breach of the notation. -/
def ofValues : Failure → Bool
  | .yaml e => e ≠ .malformed
  | f => ofFiles f

/-- The failures that a stage lets through. -/
def Stage.lets : Stage → Failure → Bool
  | .commandLine, f => ofPaths f
  | .settling, .mergeTooDeep | .settling, .keyNotText | .settling, .unwritable _ => true
  | .settling, f => ofValues f
  | .loading, .interrupted _ | .loading, .escaped _ => true
  | .loading, _ => false
  | .analysis, .undecodable | .analysis, .ignoreRule _ | .analysis, .emptyPattern => true
  | .analysis, .interrupted _ | .analysis, .escaped _ | .analysis, .walkTooDeep => true
  | .analysis, f => ofValues f
  | .report, .unwritable _ => true
  | .report, f => ofFiles f

theorem ofFiles_of_ofPaths {f : Failure} (h : ofPaths f = true) : ofFiles f = true := by
  cases f <;> first | rfl | exact h

theorem ofValues_of_ofFiles {f : Failure} (h : ofFiles f = true) : ofValues f = true := by
  cases f <;> first | exact h | cases h

theorem settling_of_ofFiles {f : Failure} (h : ofFiles f = true) :
    Stage.settling.lets f = true := by
  cases f <;> first | rfl | cases h

theorem analysis_of_ofValues {f : Failure} (h : ofValues f = true) :
    Stage.analysis.lets f = true := by
  cases f <;> first | rfl | exact h

theorem loading_of_escape (e : Escape) : Stage.loading.lets e.failure = true := by
  cases e <;> rfl

theorem analysis_of_escape (e : Escape) : Stage.analysis.lets e.failure = true := by
  cases e <;> rfl

theorem report_of_ofFiles {f : Failure} (h : ofFiles f = true) : Stage.report.lets f = true := by
  cases f <;> first | rfl | cases h

theorem analysis_of_ofFiles {f : Failure} (h : ofFiles f = true) : Stage.analysis.lets f = true :=
  analysis_of_ofValues (ofValues_of_ofFiles h)

/-! ### Files -/

section Files

variable {w : Workspace} {p : Path}

theorem pathFault?_ofPaths {s : String} {f : Failure} (h : Workspace.pathFault? s = some f) :
    ofPaths f = true := by
  unfold Workspace.pathFault? at h
  split_ifs at h <;> (rw [← Option.some.inj h]; rfl)

theorem test_fails (w : Workspace) (p : Path) (holds : FileTree → Bool) :
    FailsWith (ofFiles · = true) (w.test p holds) := by
  rw [failsWith_iff]
  intro e he
  obtain ⟨-, -, rfl⟩ := Workspace.test_eq_error_iff.mp he
  rfl

theorem openFile_fails (w : Workspace) (p : Path) :
    FailsWith (ofFiles · = true) (w.openFile p) := by
  rw [failsWith_iff]
  intro e he
  rcases Workspace.openFile_eq_error he with hfault | ⟨-, f, rfl⟩
  · exact ofFiles_of_ofPaths (pathFault?_ofPaths hfault)
  · rfl

theorem readText_fails (w : Workspace) (p : Path) :
    FailsWith (ofFiles · = true) (w.readText p) :=
  (openFile_fails w p).bind fun _ => FailsWith.ok _

/-- A file in the notation cannot be had, or the notation is at fault. -/
theorem readYaml_fails (w : Workspace) (p : Path) :
    FailsWith (fun f => ofFiles f = true ∨ ∃ e, f = .yaml e) (Target.readYaml w p) := by
  refine ((readText_fails w p).weaken fun _ => Or.inl).bind fun text => ?_
  -- Not by the law of `mapError`: unfolding its goal would evaluate the text.
  rw [failsWith_iff]
  intro f hf
  obtain ⟨e, -, rfl⟩ := mapError_eq_error_iff.mp hf
  exact Or.inr ⟨e, rfl⟩

end Files

/-! ### The analysis -/

section Analysis

variable {w : Workspace} {c : TargetsConfig}

theorem ignoreRules_fails (w : Workspace) (base : Path) :
    FailsWith (Stage.analysis.lets · = true) (w.ignoreRules base) := by
  unfold Workspace.ignoreRules
  refine ((test_fails w _ _).weaken fun _ => analysis_of_ofFiles).bind fun b => ?_
  cases b with
  | false => exact FailsWith.ok _
  | true =>
    refine ((readText_fails w _).weaken fun _ => analysis_of_ofFiles).bind fun portion => ?_
    refine FailsWith.bind ?_ fun rules => ?_
    · exact FailsWith.mapError fun _ => rfl
    · show FailsWith _ (if portion.isWhole = true then _ else _)
      split_ifs
      · exact FailsWith.ok _
      · rfl

theorem excluded_fails (p : Path) (patterns : List String) :
    FailsWith (Stage.analysis.lets · = true) (Workspace.excluded p patterns) := by
  induction patterns with
  | nil => exact FailsWith.ok _
  | cons pattern rest ih =>
    rw [Workspace.excluded]
    split_ifs
    · rfl
    · exact FailsWith.ok _
    · exact ih

theorem keeps_fails (w : Workspace) (rules : List Ignore.Rule) (patterns : List String)
    (base p : Path) :
    FailsWith (Stage.analysis.lets · = true) (w.keeps rules patterns base p) := by
  refine ((test_fails w _ _).weaken fun _ => analysis_of_ofFiles).bind ?_
  intro b
  cases b with
  | false => exact FailsWith.ok _
  | true =>
    show FailsWith _ (Workspace.leaves rules patterns base p)
    have hignored : FailsWith (Stage.analysis.lets · = true)
        (if rules.isEmpty = true then Except.ok false
          else (Ignore.ignores rules (Workspace.spellingBelow base p)).mapError .ignoreRule) := by
      split_ifs
      · exact FailsWith.ok _
      · exact FailsWith.mapError fun _ => rfl
    have hsteps : Workspace.leaves rules patterns base p =
        (if rules.isEmpty = true then Except.ok false
          else (Ignore.ignores rules (Workspace.spellingBelow base p)).mapError .ignoreRule) >>=
          fun ignored =>
            if ignored = true then .ok false
            else (fun x => !x) <$> Workspace.excluded p patterns := by
      unfold Workspace.leaves
      split_ifs <;> rfl
    rw [hsteps]
    refine hignored.bind fun ignored => ?_
    split_ifs
    · exact FailsWith.ok _
    · exact (excluded_fails p patterns).map _

theorem pathsBelow_fails (w : Workspace) (base : Path) :
    FailsWith (Stage.analysis.lets · = true) (w.pathsBelow base) := by
  refine ((test_fails w _ _).weaken fun _ => analysis_of_ofFiles).bind ?_
  intro b
  cases b with
  | false => exact FailsWith.ok _
  | true =>
    cases w.locate base with
    | ok place => exact FailsWith.ok _
    | error cause => exact FailsWith.ok _

/-- A walk fails at the directories that there is no room for. -/
theorem error_of_mem_pathsBelow {base : Path} {met : List (Except Failure Path)}
    (h : w.pathsBelow base = .ok met) {e : Failure} (he : .error e ∈ met) : e = .walkTooDeep := by
  obtain ⟨b, -, h⟩ := bind_eq_ok_iff.mp h
  have hvisits : ∀ t : FileTree, met = (t.visits w.interpreter.walkRoom).map
      (Except.map fun names => ⟨base.root, base.names ++ names⟩) → e = .walkTooDeep := by
    rintro t rfl
    obtain ⟨visit, hvisit, hsame⟩ := List.mem_map.mp he
    cases visit with
    | ok names => cases hsame
    | error e' =>
      obtain rfl : e' = e := Except.error.inj hsame
      exact FileTree.error_of_mem_visits hvisit
  cases b with
  | false =>
    rw [← Except.ok.inj h] at he
    cases he
  | true =>
    cases hloc : w.locate base with
    | error cause =>
      rw [hloc] at h
      rw [← Except.ok.inj h] at he
      cases he
    | ok place =>
      rw [hloc] at h
      exact hvisits place.2 (Except.ok.inj h).symm

theorem scan_fails (w : Workspace) (base : Path) (patterns : List String) (respect : Bool) :
    FailsWith (Stage.analysis.lets · = true) (w.scan base patterns respect) := by
  have hrest : ∀ rules, FailsWith (Stage.analysis.lets · = true) (do
      let found ← w.pathsBelow base
      let kept ← Workspace.keepFrom (w.keeps rules patterns base) found
      .ok (Workspace.sortPaths kept)) := by
    intro rules
    cases hmet : w.pathsBelow base with
    | error e => exact failsWith_iff.mp (pathsBelow_fails w base) e hmet
    | ok met =>
      refine FailsWith.bind (x := Workspace.keepFrom _ met) ?_ fun kept => FailsWith.ok _
      refine Workspace.FailsWith.keepFrom (fun e he => ?_) (keeps_fails w rules patterns base)
      rw [error_of_mem_pathsBelow hmet he]
      rfl
  unfold Workspace.scan
  cases respect with
  | true => exact (ignoreRules_fails w base).bind hrest
  | false => exact hrest []

theorem listedPaths_fails (w : Workspace) (p : Path) (key : String) :
    FailsWith (ofValues · = true) (Target.listedPaths w p key).outcome := by
  rw [failsWith_iff]
  intro f hf
  obtain ⟨hread, hbreaks⟩ := Target.listedPaths_eq_error_iff.mp hf
  rcases failsWith_iff.mp (readYaml_fails w p) f hread with hfile | ⟨e, rfl⟩
  · exact ofValues_of_ofFiles hfile
  · -- A breach of the notation is forgiven, and so is not among what is left.
    cases e <;> first | rfl | cases hbreaks

theorem isFiles_fail (w : Workspace) (ps : List Path) :
    FailsWith (ofValues · = true) (ps.mapM w.isFile) :=
  FailsWith.mapM fun p _ => (test_fails w p _).weaken fun _ => ofValues_of_ofFiles

theorem projectSources_fails (p : Path) :
    FailsWith (ofValues · = true) (Target.projectSources w c p).outcome := by
  rw [Target.projectSources_outcome]
  exact (listedPaths_fails w p _).bind fun listed => (isFiles_fail w listed).map _

theorem solutionProjects_fails (p : Path) :
    FailsWith (ofValues · = true) (Target.solutionProjects w c p).outcome := by
  rw [Target.solutionProjects_outcome]
  exact (listedPaths_fails w p _).bind fun listed => (isFiles_fail w _).map _

theorem sourcesOf_fails (ps : List Path) :
    FailsWith (ofValues · = true) (Target.sourcesOf w c ps).outcome := by
  induction ps with
  | nil => exact FailsWith.ok _
  | cons p rest ih =>
    rw [Target.sourcesOf_cons_outcome]
    exact (projectSources_fails p).bind fun here => ih.map _

theorem solutionSources_fails (p : Path) :
    FailsWith (ofValues · = true) (Target.solutionSources w c p).outcome := by
  rw [Target.solutionSources_outcome]
  exact (solutionProjects_fails p).bind fun projects => (sourcesOf_fails projects).map _

/-- What a resolution fails with. -/
theorem resolve_fails (w : Workspace) (c : TargetsConfig) (target : String) :
    FailsWith (Stage.analysis.lets · = true) (Target.resolve w c target).outcome := by
  by_cases hlook : w.Lookable (Path.ofString target)
  · rw [Target.resolve_of_lookable hlook]
    cases Target.kindAt w c (Path.ofString target) with
    | directory =>
      show FailsWith _ (Target.directorySources w c (Path.ofString target))
      exact (scan_fails w _ _ _).bind fun files => FailsWith.ok _
    | solution => exact (solutionSources_fails _).weaken fun _ => analysis_of_ofValues
    | project => exact (projectSources_fails _).weaken fun _ => analysis_of_ofValues
    | nothing | source | other => exact FailsWith.ok _
  · rw [Target.resolve_of_not_lookable hlook]
    rfl

theorem projectIn_fails (w : Workspace) (c : TargetsConfig) (dir : Path) :
    FailsWith (ofFiles · = true) (Target.projectIn w c dir) := by
  unfold Target.projectIn
  cases hnames : Target.projectNames w c dir with
  | ok names => exact FailsWith.ok _
  | error e =>
    rcases Target.projectNames_eq_error hnames with hfault | ⟨f, rfl⟩
    · have hpath := ofFiles_of_ofPaths (pathFault?_ofPaths hfault)
      cases e <;> first | exact FailsWith.ok _ | exact hpath
    · exact FailsWith.ok _

theorem firstProject_fails (w : Workspace) (c : TargetsConfig) (dirs : List Path) :
    FailsWith (ofFiles · = true) (Target.firstProject w c dirs) := by
  induction dirs with
  | nil => exact FailsWith.ok _
  | cons dir rest ih =>
    rw [Target.firstProject]
    refine (projectIn_fails w c dir).bind fun found => ?_
    cases found with
    | some p => exact FailsWith.ok _
    | none => exact ih

theorem nearestProject_fails (w : Workspace) (c : TargetsConfig) (unit : String) :
    FailsWith (ofFiles · = true) (Target.nearestProject w c unit) := by
  rw [Target.nearestProject_eq]
  exact (test_fails w _ _).bind fun b => firstProject_fails w c _

/-- What a run of entry points fails with, if it has jobs. -/
theorem run_fails {jobs : Int} (hjobs : 1 ≤ jobs) (units : List String)
    (entries : List EntryPoint) (errors : List String) :
    FailsWith (Stage.analysis.lets · = true)
      (Engine.run w c jobs units entries errors).outcome := by
  rw [Engine.run_outcome w c hjobs]
  refine FailsWith.bind ?_ fun ps => FailsWith.map (FailsWith.mapM fun slot _ => ?_) _
  · unfold Engine.preparation
    split_ifs
    · exact FailsWith.ok _
    · rw [failsWith_iff]
      intro f hf
      obtain ⟨unit, -, hstrands⟩ := Engine.prepareAll_eq_error hf
      refine analysis_of_ofFiles ?_
      cases hstrands with
      | unspellable hfault => exact ofFiles_of_ofPaths (pathFault?_ofPaths hfault)
      | lost _ hproject => exact failsWith_iff.mp (nearestProject_fails w c unit) f hproject
  · rw [failsWith_iff]
    intro f hf
    obtain ⟨escape, -, rfl⟩ := Engine.settle_eq_error_iff.mp hf
    exact analysis_of_escape escape

/-- **What an analysis fails with, if it has jobs.** -/
theorem analyze_fails (w : Workspace) (s : Settings) (p : Plan) (plugins : List Plugin.Loaded)
    (loadErrors : List String) (hjobs : 1 ≤ s.jobs.getD p.engine.jobs) :
    FailsWith (Stage.analysis.lets · = true) (analyze w s p plugins loadErrors).outcome := by
  unfold analyze Engine.runTarget
  rw [Journal.bind_outcome]
  refine (resolve_fails w p.targets s.target).bind fun units => ?_
  have hrun := run_fails (w := w) (c := p.targets) hjobs (units.map Path.toString)
    (Plugin.entryPointsOf plugins) (loadErrors ++ plugins.flatMap (·.warnings))
  split_ifs
  · rw [Journal.bind_outcome]
    exact hrun
  · exact hrun

end Analysis

/-! ### The command line -/

section CommandLine

variable {w : Workspace}

/-- A wrong use is no failure; a failure is one of a path. -/
def MayRefuse : Refusal → Prop
  | .usage _ => True
  | .failure f => Stage.commandLine.lets f = true

/-- Settings ask for one job at least, if they ask for jobs. -/
def HaveJobs (s : Settings) : Prop := ∀ n, s.jobs = some n → 1 ≤ n

theorem checkPath_fails (w : Workspace) (o : Opt) (need : PathNeed) (s : String) :
    FailsWith MayRefuse (checkPath w o need s) := by
  unfold checkPath
  cases hfault : Workspace.pathFault? s with
  | some f => exact pathFault?_ofPaths hfault
  | none =>
    cases w.locateText s with
    | error e =>
      show FailsWith _ (if need.mustExist = true then _ else _)
      split_ifs
      · trivial
      · exact FailsWith.ok _
    | ok place =>
      show FailsWith _ (if (place.2.isDir && !need.allowsDirectory) = true then _ else _)
      split_ifs
      · trivial
      · exact FailsWith.ok _

theorem checkFormat_fails (s : String) : FailsWith MayRefuse (checkFormat s) := by
  unfold checkFormat
  simp only
  split
  · exact FailsWith.ok _
  · trivial

theorem checkJobs_ends (s : String) : Ends (fun n : Int => 1 ≤ n) MayRefuse (checkJobs s) := by
  unfold checkJobs
  cases Text.readInteger 10 s.toList with
  | none => trivial
  | some n =>
    show Ends _ _ (if n < 1 then _ else _)
    split_ifs with hn
    · trivial
    · exact Int.not_lt.mp hn

/-- Taking an option into settings leaves them with jobs. -/
theorem take_ends {s : Settings} (hs : HaveJobs s) (o : Opt) (values : List String) :
    Ends HaveJobs MayRefuse (take w o values s) := by
  unfold take
  cases o with
  | analyzers =>
    exact Ends.bind (FailsWith.mapM fun v _ => checkPath_fails w _ _ v) fun paths _ => hs
  | target =>
    show Ends _ _ (if values.isEmpty = true then _ else _)
    split_ifs
    · trivial
    · exact Ends.bind (checkPath_fails w _ _ _) fun path _ => hs
  | format =>
    show Ends _ _ (if values.isEmpty = true then _ else _)
    split_ifs
    · exact hs
    · exact Ends.bind (checkFormat_fails _) fun format _ => hs
  | verbose => exact hs
  | quiet => exact hs
  | output =>
    show Ends _ _ (if values.isEmpty = true then _ else _)
    split_ifs
    · exact hs
    · exact Ends.bind (checkPath_fails w _ _ _) fun path _ => hs
  | jobs =>
    show Ends _ _ (if values.isEmpty = true then _ else _)
    split_ifs
    · exact hs
    · refine Ends.bind (checkJobs_ends _) fun n hn => ?_
      intro k hk
      rw [← Option.some.inj hk]
      exact hn
  | config =>
    show Ends _ _ (if values.isEmpty = true then _ else _)
    split_ifs
    · exact hs
    · exact Ends.bind (checkPath_fails w _ _ _) fun path _ => hs
  | version => exact hs
  | help => exact hs

/-- **How reading a command line ends.** -/
theorem request_ends (w : Workspace) (args : List String) :
    Ends (fun r => ∀ s, r = .run s → HaveJobs s) MayRefuse (request w args) := by
  unfold request
  refine Ends.bind (P := fun _ => True) ?_ fun p _ => ?_
  · cases parse args with
    | ok p => trivial
    | error e => trivial
  · cases p.given.find? fun g => g.option.isEager with
    | some g =>
      show ∀ s, (if g.option = .help then Request.help else .version) = .run s → HaveJobs s
      intro s hs
      split_ifs at hs
    | none =>
      have hnone : HaveJobs {} := fun n hn => by cases hn
      refine Ends.bind (Ends.foldlM (fun s o _ hs => take_ends hs o _) hnone) fun s hs => ?_
      split_ifs
      · intro s' hs'
        rw [← Request.run.inj hs']
        exact hs
      · trivial

end CommandLine

/-! ### Settling -/

section Settling

variable {w : Workspace}

/-- Settling is refused, or fails with what it lets through. -/
def MaySettle (f : Failure) : Prop := isRefusal f = true ∨ Stage.settling.lets f = true

theorem maySettle_of_ofFiles {f : Failure} (h : ofFiles f = true) : MaySettle f :=
  Or.inr (settling_of_ofFiles h)

theorem layOver_fails (room : Nat) (base upper : Config.Entries) :
    FailsWith MaySettle (Config.layOver room base upper) := by
  unfold Config.layOver
  split_ifs
  · exact Or.inr rfl
  · exact FailsWith.ok _

theorem readLayer_fails (w : Workspace) (p : Path) :
    FailsWith (fun f => ofFiles f = true ∨ (∃ e, f = .yaml e) ∨ ∃ e, f = .config e)
      (Config.readLayer w p) := by
  refine FailsWith.bind (x := Target.readYaml w p) ?_ fun v => ?_
  · exact (readYaml_fails w p).weaken fun f hf => hf.elim Or.inl fun he => Or.inr (Or.inl he)
  · cases v.view with
    | null | map _ => exact FailsWith.ok _
    | _ => exact Or.inr (Or.inr ⟨_, rfl⟩)

theorem withUserLayer_fails (w : Workspace) (base : Config.Entries) :
    FailsWith MaySettle (Config.withUserLayer w base).outcome := by
  unfold Config.withUserLayer
  rw [Journal.bind_outcome]
  refine ((test_fails w _ _).weaken fun _ => maySettle_of_ofFiles).bind ?_
  intro b
  cases b with
  | false => exact FailsWith.ok _
  | true =>
    cases hlayer : Config.readLayer w (Config.userFile w) with
    | ok entries =>
      simp only [if_true]
      exact layOver_fails _ base entries
    | error e =>
      have he := failsWith_iff.mp (readLayer_fails w _) e hlayer
      simp only [if_true]
      split_ifs with hbroken
      · exact FailsWith.ok _
      · -- What is left of the failures of a layer is neither malformed nor no mapping.
        rcases he with hfile | ⟨y, rfl⟩ | ⟨problem, rfl⟩
        · exact maySettle_of_ofFiles hfile
        · cases y <;> first | exact Or.inr rfl | exact absurd rfl hbroken
        · exact absurd rfl hbroken

theorem withProjectLayer_fails (w : Workspace) (p : Path) (base : Config.Entries) :
    FailsWith MaySettle (Config.withProjectLayer w p base) := by
  unfold Config.withProjectLayer
  refine ((test_fails w _ _).weaken fun _ => maySettle_of_ofFiles).bind ?_
  intro b
  cases b with
  | false => exact FailsWith.ok _
  | true =>
    cases hlayer : Config.readLayer w p with
    | ok entries =>
      simp only [if_true]
      exact layOver_fails _ base entries
    | error e =>
      have he := failsWith_iff.mp (readLayer_fails w p) e hlayer
      simp only [if_true]
      rcases he with hfile | ⟨y, rfl⟩ | ⟨problem, rfl⟩
      · have hsame : Config.projectFailure p e = e := by
          cases e <;> first | rfl | cases hfile
        show MaySettle (Config.projectFailure p e)
        rw [hsame]
        exact maySettle_of_ofFiles hfile
      · cases y <;> first | exact Or.inl rfl | exact Or.inr rfl
      · exact Or.inl rfl

theorem load_fails (w : Workspace) (projectDir : String) (named : Option String) :
    FailsWith MaySettle (Config.load w projectDir named).outcome := by
  unfold Config.load
  rw [Journal.bind_outcome]
  refine (withUserLayer_fails w _).bind fun base => ?_
  rw [Journal.bind_outcome]
  refine (withProjectLayer_fails w _ base).bind fun entries => ?_
  cases Config.problemOf entries with
  | none => exact FailsWith.ok _
  | some problem => exact Or.inl rfl

/-- A checked section is what its check makes of some entries. -/
theorem checkedSection_ends {α : Type} {P : α → Prop} (name model : String)
    {check : List (Value × Value) → Check α} (h : ∀ es a, check es = .ok a → P a)
    (entries : Config.Entries) :
    Ends P MaySettle (checkedSection name model check entries) := by
  unfold checkedSection
  simp only
  split_ifs
  · cases hcheck : check (Config.sectionEntries name entries) with
    | ok a =>
      simp only
      exact h _ a hcheck
    | bad problems =>
      simp only
      exact Or.inl rfl
  · exact Or.inr rfl

theorem chooseFormat_fails (s : Settings) (c : OutputConfig) :
    FailsWith MaySettle (chooseFormat s c) := by
  unfold chooseFormat
  cases s.format with
  | some f => exact FailsWith.ok _
  | none =>
    cases Report.Format.ofName? c.format with
    | some f => exact FailsWith.ok _
    | none => exact Or.inl rfl

theorem listedAnalyzers_fails (limits : Limits) (entries : Config.Entries) :
    FailsWith MaySettle (Config.listedAnalyzers limits entries) := by
  unfold Config.listedAnalyzers
  split
  · exact FailsWith.mapM fun v _ => FailsWith.mapError fun _ => Or.inr rfl
  · exact FailsWith.ok _

/-- **How settling a run ends.** -/
theorem plan_ends (w : Workspace) (s : Settings) :
    Ends (fun p : Plan => 1 ≤ p.engine.jobs) MaySettle (plan w s).outcome := by
  unfold plan
  rw [Journal.bind_outcome]
  refine Ends.bind (load_fails w _ _) fun entries _ => ?_
  show Ends _ _ (checkedSection _ _ _ _ >>= _)
  refine Ends.bind (checkedSection_ends _ _ (fun _ _ _ => trivial) entries) fun targets _ => ?_
  refine Ends.bind (checkedSection_ends _ _ (fun _ _ h => jobs_of_checkFields h) entries) ?_
  intro engine hjobs
  refine Ends.bind (checkedSection_ends _ _ (fun _ _ _ => trivial) entries) fun output _ => ?_
  refine Ends.bind (chooseFormat_fails s output) fun format _ => ?_
  exact Ends.bind (listedAnalyzers_fails _ entries) fun listed _ => hjobs

end Settling

/-! ### Loading -/

/-- **What loading modules fails with**: what there is to tell about one of them is an error of the
run and no failure. -/
theorem loadAll_fails (w : Workspace) (s : Plugin.LoadState) (paths : List String) :
    FailsWith (Stage.loading.lets · = true) (Plugin.loadAll w s paths).journal.outcome := by
  refine (Plugin.loadAll_escapes w s paths).weaken fun f hf => ?_
  obtain ⟨e, rfl⟩ := hf
  exact loading_of_escape e

/-! ### The report -/

/-- A report is not written out where a number in it is too long. -/
theorem render_fails (digits : Option Nat) (f : Report.Format) (r : AnalysisResult)
    (verbose : Bool) :
    FailsWith (Stage.report.lets · = true) (Report.render digits f r verbose) := by
  cases f with
  | text => exact FailsWith.ok _
  | sarif =>
    unfold Report.render Report.renderSarif Report.documentText
    split_ifs
    · rfl
    · exact FailsWith.ok _

theorem writeFile_fails (w : Workspace) (p : Path) (bytes : List UInt8) :
    FailsWith (Stage.report.lets · = true) (w.writeFile p bytes) := by
  unfold Workspace.writeFile
  split
  · rename_i f _ hfault
    exact report_of_ofFiles (ofFiles_of_ofPaths (pathFault?_ofPaths hfault))
  · rfl
  · exact FailsWith.ok _
  · split
    · split_ifs
      · rfl
      · exact FailsWith.ok _
    · rfl
    · rfl
  · rfl

end LintHost.Command
