/-
The status of a run.

A run ends in one of four ways: it only informs, it is refused, it is stopped by a failure that
nobody answers, or it finishes with a result.  Each way has a relation of its own here, and
`informs_or_refuses_or_stops_or_finishes` says that there is no fifth.

Status two is that of a refused run and of one without a module, and status one that of findings.
It is that of a stopped run as well, so whoever reads it cannot tell one from the other.  How far
that goes is told by `Stage.lets`: a stopped run met one of the failures listed there for the stage
it was in.
-/
import LintHost.Proofs.Command.Stages

namespace LintHost.Command

open LintHost.Outcome

/-! ### The ways a run ends -/

/-- A run gets as far as having everything settled. -/
structure Settles (w : Workspace) (args : List String) (s : Settings) (p : Plan) : Prop where
  request : request w args = .ok (.run s)
  calm : (s.verbose && s.quiet) = false
  plan : (plan w s).outcome = .ok p
  paths : p.paths ≠ []

/-- A run gets as far as having its modules loaded. -/
structure Loads (w : Workspace) (m : Plugin.Modules) (args : List String) (s : Settings) (p : Plan)
    (plugins : List Plugin.Loaded) (errors : List String) : Prop extends Settles w args s p where
  loading : (Plugin.loadAll w ⟨m, ⟨[]⟩⟩ p.paths).journal.outcome = .ok (plugins, errors)

/-- A run gets as far as having a result, with the number of modules it loaded. -/
inductive Analyzes (w : Workspace) (m : Plugin.Modules) (args : List String) :
    Settings → Plan → Nat → AnalysisResult → Prop
  | intro {s : Settings} {p : Plan} {plugins : List Plugin.Loaded} {errors : List String}
      {result : AnalysisResult} (loads : Loads w m args s p plugins errors)
      (analysis : (analyze w s p plugins errors).outcome = .ok result) :
      Analyzes w m args s p plugins.length result

/-- The report about a result, if it can be written out. -/
def reportOf (w : Workspace) (s : Settings) (p : Plan) (result : AnalysisResult) :
    Except Failure String :=
  Report.render w.interpreter.digits p.format (told p.format result) s.verbose

/-- Whether a report can be put into bytes. -/
def whole (report : String) : Except Failure Unit :=
  if Text.holdsHalf report.toList then .error .halfInText else .ok ()

/-- Whether a report gets out. One that cannot be put into bytes still makes its file. -/
def delivering (w : Workspace) (s : Settings) (report : String) : Except Failure Unit :=
  match s.output with
  | none => whole report
  | some path =>
    if path.isEmpty then whole report
    else do
      let text := if !Text.holdsHalf report.toList then closed report else ""
      let _ ← w.writeFile (Path.ofString path) (Text.Utf8.encode text.toList)
      whole report

/-- Whether the report about a result is written out and gets out. -/
def reporting (w : Workspace) (s : Settings) (p : Plan) (result : AnalysisResult) :
    Except Failure Unit := do
  let report ← reportOf w s p result
  delivering w s report

/-- The command line asks for a text. -/
inductive Informs (w : Workspace) (args : List String) : Prop
  | help (h : request w args = .ok .help)
  | version (h : request w args = .ok .version)

/-- The run is refused, with what is told about it. -/
inductive Refuses (w : Workspace) (args : List String) : UsageProblem → Prop
  /-- The command line is wrong. -/
  | commandLine {p : UsageProblem} (h : request w args = .error (.usage p)) : Refuses w args p
  /-- It asks for more to be told and for less. -/
  | loud {s : Settings} (h : request w args = .ok (.run s))
      (hloud : (s.verbose && s.quiet) = true) :
      Refuses w args (.other "Cannot specify both --verbose and --quiet")
  /-- The configuration cannot be used. -/
  | settling {s : Settings} {f : Failure} (h : request w args = .ok (.run s))
      (hcalm : (s.verbose && s.quiet) = false) (hplan : (plan w s).outcome = .error f)
      (hf : isRefusal f = true) : Refuses w args (.other (f.message?.getD ""))
  /-- No analyzer is named anywhere. -/
  | idle {s : Settings} {p : Plan} (h : request w args = .ok (.run s))
      (hcalm : (s.verbose && s.quiet) = false) (hplan : (plan w s).outcome = .ok p)
      (hpaths : p.paths = []) :
      Refuses w args (.other "At least one --analyzers path is required.")

/-- The run is stopped in a stage, by a failure that nobody answers. -/
inductive Stops (w : Workspace) (m : Plugin.Modules) (args : List String) : Stage → Failure → Prop
  | commandLine {f : Failure} (h : request w args = .error (.failure f)) :
      Stops w m args .commandLine f
  | settling {s : Settings} {f : Failure} (h : request w args = .ok (.run s))
      (hcalm : (s.verbose && s.quiet) = false) (hplan : (plan w s).outcome = .error f)
      (hf : isRefusal f = false) : Stops w m args .settling f
  | loading {s : Settings} {p : Plan} {f : Failure} (settles : Settles w args s p)
      (h : (Plugin.loadAll w ⟨m, ⟨[]⟩⟩ p.paths).journal.outcome = .error f) :
      Stops w m args .loading f
  | analysis {s : Settings} {p : Plan} {plugins : List Plugin.Loaded} {errors : List String}
      {f : Failure} (loads : Loads w m args s p plugins errors)
      (h : (analyze w s p plugins errors).outcome = .error f) : Stops w m args .analysis f
  | report {s : Settings} {p : Plan} {loaded : Nat} {result : AnalysisResult} {f : Failure}
      (analyzes : Analyzes w m args s p loaded result) (h : reporting w s p result = .error f) :
      Stops w m args .report f

/-- The run finishes with a result, having been asked for some modules and having loaded some. -/
inductive Finishes (w : Workspace) (m : Plugin.Modules) (args : List String) :
    AnalysisResult → Nat → Nat → Prop
  | intro {s : Settings} {p : Plan} {loaded : Nat} {result : AnalysisResult}
      (analyzes : Analyzes w m args s p loaded result) (h : reporting w s p result = .ok ()) :
      Finishes w m args result p.paths.length loaded

variable {w : Workspace} {m : Plugin.Modules} {args : List String}

/-! ### There is no fifth -/

theorem stops_or_finishes_of_settles {s : Settings} {p : Plan} (h : Settles w args s p) :
    (∃ stage f, Stops w m args stage f) ∨
      ∃ result requested loaded, Finishes w m args result requested loaded := by
  cases hload : (Plugin.loadAll w ⟨m, ⟨[]⟩⟩ p.paths).journal.outcome with
  | error f => exact Or.inl ⟨_, f, .loading h hload⟩
  | ok given =>
    obtain ⟨plugins, errors⟩ := given
    have hloads : Loads w m args s p plugins errors := ⟨h, hload⟩
    cases hanalysis : (analyze w s p plugins errors).outcome with
    | error f => exact Or.inl ⟨_, f, .analysis hloads hanalysis⟩
    | ok result =>
      have hresult : Analyzes w m args s p plugins.length result := .intro hloads hanalysis
      cases hreport : reporting w s p result with
      | error f => exact Or.inl ⟨_, f, .report hresult hreport⟩
      | ok _ => exact Or.inr ⟨_, _, _, .intro hresult hreport⟩

/-- **A run ends in one of four ways.** -/
theorem informs_or_refuses_or_stops_or_finishes (w : Workspace) (m : Plugin.Modules)
    (args : List String) :
    Informs w args ∨ (∃ p, Refuses w args p) ∨ (∃ stage f, Stops w m args stage f) ∨
      ∃ result requested loaded, Finishes w m args result requested loaded := by
  cases hrequest : request w args with
  | error refusal =>
    cases refusal with
    | usage p => exact Or.inr (Or.inl ⟨p, .commandLine hrequest⟩)
    | failure f => exact Or.inr (Or.inr (Or.inl ⟨_, f, .commandLine hrequest⟩))
  | ok asked =>
    cases asked with
    | help => exact Or.inl (.help hrequest)
    | version => exact Or.inl (.version hrequest)
    | run s =>
      by_cases hloud : (s.verbose && s.quiet) = true
      · exact Or.inr (Or.inl ⟨_, .loud hrequest hloud⟩)
      · have hcalm := Bool.eq_false_iff.mpr hloud
        cases hplan : (plan w s).outcome with
        | error f =>
          by_cases hf : isRefusal f = true
          · exact Or.inr (Or.inl ⟨_, .settling hrequest hcalm hplan hf⟩)
          · exact Or.inr (Or.inr (Or.inl
              ⟨_, f, .settling hrequest hcalm hplan (Bool.eq_false_iff.mpr hf)⟩))
        | ok p =>
          by_cases hpaths : p.paths = []
          · exact Or.inr (Or.inl ⟨_, .idle hrequest hcalm hplan hpaths⟩)
          · exact Or.inr (Or.inr (stops_or_finishes_of_settles ⟨hrequest, hcalm, hplan, hpaths⟩))

/-! ### The status of each way -/

/-- What a failure leaves as escaped: the user's own interrupt is told instead. -/
def escapes (f : Failure) : Option Failure :=
  if f = .interrupted keyboardInterrupt then none else some f

theorem stopped_status (events : List Event) (stderr : String) (f : Failure) :
    (stopped w m events stderr f).status = 1 := by
  unfold stopped
  split_ifs <;> rfl

theorem stopped_escaped (events : List Event) (stderr : String) (f : Failure) :
    (stopped w m events stderr f).escaped = escapes f := by
  unfold stopped escapes
  split_ifs <;> rfl

/-- A run comes to a status and something that escapes. -/
def ComesTo (o : Outcome) (status : Nat) (escaped : Option Failure) : Prop :=
  o.status = status ∧ o.escaped = escaped

theorem stopped_comesTo (events : List Event) (stderr : String) (f : Failure) :
    ComesTo (stopped w m events stderr f) 1 (escapes f) :=
  ⟨stopped_status events stderr f, stopped_escaped events stderr f⟩

theorem run_comesTo_iff {status : Nat} {escaped : Option Failure} :
    ComesTo (run w m args) status escaped ↔ ComesTo (runStyled w m args) status escaped := Iff.rfl

theorem runStyled_of_request {s : Settings} (h : request w args = .ok (.run s)) :
    runStyled w m args = runWith w m s := by
  rw [runStyled, h]

theorem runWith_of_settles {s : Settings} {p : Plan} (h : Settles w args s p) :
    runWith w m s = perform w m s p (shown s (plan w s).events) := by
  have hpaths : p.paths.isEmpty = false := by
    rw [List.isEmpty_eq_false_iff]
    exact h.paths
  simp only [runWith, h.calm, h.plan, hpaths, Bool.false_eq_true, if_false]

theorem whole_eq_ok_iff {report : String} :
    whole report = .ok () ↔ Text.holdsHalf report.toList = false := by
  unfold whole
  cases Text.holdsHalf report.toList <;> simp

theorem whole_eq_error_iff {report : String} {f : Failure} :
    whole report = .error f ↔ Text.holdsHalf report.toList = true ∧ f = .halfInText := by
  unfold whole
  cases Text.holdsHalf report.toList <;> simp [eq_comm]

theorem deliver_comesTo_of_ok {s : Settings} {p : Plan} {result : AnalysisResult} {report : String}
    (loaded : Nat) (events : List Event) (stderr : String) (h : delivering w s report = .ok ()) :
    ComesTo (deliver w m s p loaded events stderr result report)
      (ExitStatus.ofRun result p.paths.length loaded) none := by
  unfold delivering at h
  simp only [deliver]
  cases hout : s.output with
  | none =>
    simp only [hout] at h
    simp only [whole_eq_ok_iff.mp h, Bool.not_false, if_true]
    exact ⟨rfl, rfl⟩
  | some path =>
    simp only [hout] at h
    by_cases hpath : path.isEmpty = true
    · rw [if_pos hpath] at h
      simp only [whole_eq_ok_iff.mp h, hpath, Bool.not_false, if_true]
      exact ⟨rfl, rfl⟩
    · rw [if_neg hpath] at h
      obtain ⟨w', hwrite, hwhole⟩ := bind_eq_ok_iff.mp h
      have hhalf := whole_eq_ok_iff.mp hwhole
      simp only [hhalf, Bool.not_false, if_true] at hwrite
      simp only [hhalf, hpath, hwrite, Bool.not_false, Bool.false_eq_true, if_false, if_true]
      exact ⟨rfl, rfl⟩

theorem deliver_comesTo_of_error {s : Settings} {p : Plan} {result : AnalysisResult}
    {report : String} {f : Failure} (loaded : Nat) (events : List Event) (stderr : String)
    (h : delivering w s report = .error f) :
    ComesTo (deliver w m s p loaded events stderr result report) 1 (escapes f) := by
  unfold delivering at h
  simp only [deliver]
  cases hout : s.output with
  | none =>
    simp only [hout] at h
    obtain ⟨hhalf, rfl⟩ := whole_eq_error_iff.mp h
    simp only [hhalf, Bool.not_true, Bool.false_eq_true, if_false]
    exact stopped_comesTo _ _ _
  | some path =>
    simp only [hout] at h
    by_cases hpath : path.isEmpty = true
    · rw [if_pos hpath] at h
      obtain ⟨hhalf, rfl⟩ := whole_eq_error_iff.mp h
      simp only [hhalf, hpath, Bool.not_true, Bool.false_eq_true, if_false, if_true]
      exact stopped_comesTo _ _ _
    · rw [if_neg hpath] at h
      rcases bind_eq_error_iff.mp h with hwrite | ⟨w', hwrite, hwhole⟩
      · simp only [hpath, hwrite, Bool.false_eq_true, if_false]
        exact stopped_comesTo _ _ _
      · obtain ⟨hhalf, rfl⟩ := whole_eq_error_iff.mp hwhole
        simp only [hhalf, Bool.not_true, Bool.false_eq_true, if_false] at hwrite
        simp only [hhalf, hpath, hwrite, Bool.not_true, Bool.false_eq_true, if_false]
        exact stopped_comesTo _ _ _

theorem finish_of_reportOf {s : Settings} {p : Plan} {result : AnalysisResult} {report : String}
    (loaded : Nat) (events : List Event) (stderr : String)
    (h : reportOf w s p result = .ok report) :
    finish w m s p loaded events stderr result =
      deliver w m s p loaded events stderr result report := by
  unfold reportOf at h
  simp only [finish, h]

theorem finish_comesTo_of_ok {s : Settings} {p : Plan} {result : AnalysisResult} (loaded : Nat)
    (events : List Event) (stderr : String) (h : reporting w s p result = .ok ()) :
    ComesTo (finish w m s p loaded events stderr result)
      (ExitStatus.ofRun result p.paths.length loaded) none := by
  obtain ⟨report, hreport, hdelivers⟩ := bind_eq_ok_iff.mp h
  rw [finish_of_reportOf _ _ _ hreport]
  exact deliver_comesTo_of_ok _ _ _ hdelivers

theorem finish_comesTo_of_error {s : Settings} {p : Plan} {result : AnalysisResult} {f : Failure}
    (loaded : Nat) (events : List Event) (stderr : String)
    (h : reporting w s p result = .error f) :
    ComesTo (finish w m s p loaded events stderr result) 1 (escapes f) := by
  rcases bind_eq_error_iff.mp h with hreport | ⟨report, hreport, hdelivers⟩
  · unfold reportOf at hreport
    simp only [finish, hreport]
    exact stopped_comesTo _ _ _
  · rw [finish_of_reportOf _ _ _ hreport]
    exact deliver_comesTo_of_error _ _ _ hdelivers

theorem comesTo_of_informs (h : Informs w args) :
    ComesTo (run w m args) ExitStatus.success none := by
  rw [run_comesTo_iff, runStyled]
  cases h with
  | help h =>
    rw [h]
    exact ⟨rfl, rfl⟩
  | version h =>
    rw [h]
    exact ⟨rfl, rfl⟩

theorem comesTo_of_refuses {p : UsageProblem} (h : Refuses w args p) :
    ComesTo (run w m args) ExitStatus.fatal none := by
  rw [run_comesTo_iff]
  cases h with
  | commandLine h =>
    rw [runStyled, h]
    exact ⟨rfl, rfl⟩
  | loud h hloud =>
    rw [runStyled_of_request h, runWith, if_pos hloud]
    exact ⟨rfl, rfl⟩
  | settling h hcalm hplan hf =>
    rw [runStyled_of_request h]
    simp only [runWith, hcalm, hplan, hf, Bool.false_eq_true, if_false, if_true]
    exact ⟨rfl, rfl⟩
  | idle h hcalm hplan hpaths =>
    rw [runStyled_of_request h]
    simp only [runWith, hcalm, hplan, hpaths, List.isEmpty_nil, Bool.false_eq_true, if_false,
      if_true]
    exact ⟨rfl, rfl⟩

theorem comesTo_of_stops {stage : Stage} {f : Failure} (h : Stops w m args stage f) :
    ComesTo (run w m args) 1 (escapes f) := by
  rw [run_comesTo_iff]
  cases h with
  | commandLine h =>
    rw [runStyled, h]
    exact stopped_comesTo _ _ _
  | settling h hcalm hplan hf =>
    rw [runStyled_of_request h]
    simp only [runWith, hcalm, hplan, hf, Bool.false_eq_true, if_false]
    exact stopped_comesTo _ _ _
  | loading settles h =>
    rw [runStyled_of_request settles.request, runWith_of_settles settles]
    simp only [perform, h]
    exact stopped_comesTo _ _ _
  | analysis loads h =>
    rw [runStyled_of_request loads.request, runWith_of_settles loads.toSettles]
    simp only [perform, loads.loading, h]
    exact stopped_comesTo _ _ _
  | report analyzes h =>
    obtain ⟨loads, hanalysis⟩ := analyzes
    rw [runStyled_of_request loads.request, runWith_of_settles loads.toSettles]
    simp only [perform, loads.loading, hanalysis]
    exact finish_comesTo_of_error _ _ _ h

theorem comesTo_of_finishes {result : AnalysisResult} {requested loaded : Nat}
    (h : Finishes w m args result requested loaded) :
    ComesTo (run w m args) (ExitStatus.ofRun result requested loaded) none := by
  obtain ⟨⟨loads, hanalysis⟩, hreport⟩ := h
  rw [run_comesTo_iff, runStyled_of_request loads.request, runWith_of_settles loads.toSettles]
  simp only [perform, loads.loading, hanalysis]
  exact finish_comesTo_of_ok _ _ _ hreport

/-! ### A run that finishes -/

/-- A run that finishes was asked for modules. -/
theorem Finishes.requested_pos {result : AnalysisResult} {requested loaded : Nat}
    (h : Finishes w m args result requested loaded) : 0 < requested := by
  obtain ⟨⟨loads, -⟩, -⟩ := h
  exact List.length_pos_iff.mpr loads.paths

theorem ofRun_eq {result : AnalysisResult} {requested loaded : Nat} (h : 0 < requested) :
    ExitStatus.ofRun result requested loaded =
      if loaded = 0 then 2 else if result.diagnostics = [] then 0 else 1 := by
  rw [ExitStatus.ofRun, ExitStatus.ofResult]
  by_cases hloaded : loaded = 0
  · rw [if_pos hloaded, if_pos (by simpa [hloaded] using h)]
    rfl
  · rw [if_neg hloaded, if_neg (by simp [hloaded])]
    cases result.diagnostics <;> rfl

theorem status_of_finishes {result : AnalysisResult} {requested loaded : Nat}
    (h : Finishes w m args result requested loaded) :
    (run w m args).status = if loaded = 0 then 2 else if result.diagnostics = [] then 0 else 1 := by
  rw [(comesTo_of_finishes h).1, ofRun_eq h.requested_pos]

/-! ### What stops a run -/

theorem delivering_fails (w : Workspace) (s : Settings) (report : String) :
    FailsWith (Stage.report.lets · = true) (delivering w s report) := by
  have hwhole : FailsWith (Stage.report.lets · = true) (whole report) := by
    rw [failsWith_iff]
    intro e he
    rw [(whole_eq_error_iff.mp he).2]
    rfl
  unfold delivering
  cases s.output with
  | none => exact hwhole
  | some path =>
    by_cases hpath : path.isEmpty = true
    · simp only [if_pos hpath]
      exact hwhole
    · simp only [if_neg hpath]
      exact (writeFile_fails w _ _).bind fun _ => hwhole

/-- **A stopped run met a failure that its stage lets through.** -/
theorem lets_of_stops {stage : Stage} {f : Failure} (h : Stops w m args stage f) :
    stage.lets f = true := by
  cases h with
  | commandLine h => exact (ends_iff.mp (request_ends w args)).2 _ h
  | settling h hcalm hplan hf =>
    rcases (ends_iff.mp (plan_ends w _)).2 f hplan with hrefusal | hlets
    · rw [hf] at hrefusal
      cases hrefusal
    · exact hlets
  | loading settles h => exact failsWith_iff.mp (loadAll_fails w _ _) f h
  | @analysis s p plugins errors f loads h =>
    have hsettings : HaveJobs s := (ends_iff.mp (request_ends w args)).1 _ loads.request s rfl
    have hplan : 1 ≤ p.engine.jobs := (ends_iff.mp (plan_ends w s)).1 p loads.plan
    have hjobs : 1 ≤ s.jobs.getD p.engine.jobs := by
      cases hs : s.jobs with
      | none => exact hplan
      | some n => exact hsettings n hs
    exact failsWith_iff.mp (analyze_fails w s p plugins errors hjobs) f h
  | @report s p loaded result f analyzes h =>
    have hreporting : FailsWith (Stage.report.lets · = true) (reporting w s p result) :=
      (render_fails _ _ _ _).bind fun report => delivering_fails w s report
    exact failsWith_iff.mp hreporting f h

/-- A failure that the host has an answer to is let through by no stage. -/
theorem not_lets_of_answered {stage : Stage} {f : Failure}
    (h : isRefusal f = true ∨ f = .yaml .malformed ∨ ∃ n, f = .badJobs n) :
    stage.lets f = false := by
  rcases h with h | rfl | ⟨n, rfl⟩
  · cases f <;> first | (cases stage <;> rfl) | cases h
  · cases stage <;> rfl
  · cases stage <;> rfl

/-! ### What the status tells -/

theorem status_eq_one_iff :
    (run w m args).status = 1 ↔
      (∃ result requested loaded, Finishes w m args result requested loaded ∧ loaded ≠ 0 ∧
        result.diagnostics ≠ []) ∨
      ∃ stage f, Stops w m args stage f := by
  constructor
  · intro hone
    rcases informs_or_refuses_or_stops_or_finishes w m args with h | ⟨p, h⟩ | h | h
    · rw [(comesTo_of_informs h).1] at hone
      cases hone
    · rw [(comesTo_of_refuses h).1] at hone
      cases hone
    · exact Or.inr h
    · obtain ⟨result, requested, loaded, h⟩ := h
      rw [status_of_finishes h] at hone
      by_cases hloaded : loaded = 0
      · rw [if_pos hloaded] at hone
        cases hone
      · by_cases hnone : result.diagnostics = []
        · rw [if_neg hloaded, if_pos hnone] at hone
          cases hone
        · exact Or.inl ⟨result, requested, loaded, h, hloaded, hnone⟩
  · rintro (⟨result, requested, loaded, h, hloaded, hsome⟩ | ⟨stage, f, h⟩)
    · rw [status_of_finishes h, if_neg hloaded, if_neg hsome]
    · exact (comesTo_of_stops h).1

theorem status_eq_two_iff :
    (run w m args).status = 2 ↔
      (∃ p, Refuses w args p) ∨ ∃ result requested, Finishes w m args result requested 0 := by
  constructor
  · intro htwo
    rcases informs_or_refuses_or_stops_or_finishes w m args with h | h | ⟨stage, f, h⟩ | h
    · rw [(comesTo_of_informs h).1] at htwo
      cases htwo
    · exact Or.inl h
    · rw [(comesTo_of_stops h).1] at htwo
      cases htwo
    · obtain ⟨result, requested, loaded, h⟩ := h
      rw [status_of_finishes h] at htwo
      by_cases hloaded : loaded = 0
      · rw [hloaded] at h
        exact Or.inr ⟨result, requested, h⟩
      · rw [if_neg hloaded] at htwo
        split_ifs at htwo
        cases htwo
  · rintro (⟨p, h⟩ | ⟨result, requested, h⟩)
    · exact (comesTo_of_refuses h).1
    · rw [status_of_finishes h, if_pos rfl]

theorem status_eq_zero_iff :
    (run w m args).status = 0 ↔
      Informs w args ∨ ∃ result requested loaded, Finishes w m args result requested loaded ∧
        loaded ≠ 0 ∧ result.diagnostics = [] := by
  constructor
  · intro hzero
    rcases informs_or_refuses_or_stops_or_finishes w m args with h | ⟨p, h⟩ | ⟨stage, f, h⟩ | h
    · exact Or.inl h
    · rw [(comesTo_of_refuses h).1] at hzero
      cases hzero
    · rw [(comesTo_of_stops h).1] at hzero
      cases hzero
    · obtain ⟨result, requested, loaded, h⟩ := h
      rw [status_of_finishes h] at hzero
      by_cases hloaded : loaded = 0
      · rw [if_pos hloaded] at hzero
        cases hzero
      · by_cases hnone : result.diagnostics = []
        · exact Or.inr ⟨result, requested, loaded, h, hloaded, hnone⟩
        · rw [if_neg hloaded, if_neg hnone] at hzero
          cases hzero
  · rintro (h | ⟨result, requested, loaded, h, hloaded, hnone⟩)
    · exact (comesTo_of_informs h).1
    · rw [status_of_finishes h, if_neg hloaded, if_pos hnone]

theorem escaped_eq_some_iff {f : Failure} :
    (run w m args).escaped = some f ↔
      f ≠ .interrupted keyboardInterrupt ∧ ∃ stage, Stops w m args stage f := by
  constructor
  · intro hsome
    rcases informs_or_refuses_or_stops_or_finishes w m args with h | ⟨p, h⟩ | ⟨stage, e, h⟩ | h
    · rw [(comesTo_of_informs h).2] at hsome
      cases hsome
    · rw [(comesTo_of_refuses h).2] at hsome
      cases hsome
    · rw [(comesTo_of_stops h).2, escapes] at hsome
      split_ifs at hsome with hinterrupt
      obtain rfl := Option.some.inj hsome
      exact ⟨hinterrupt, stage, h⟩
    · obtain ⟨result, requested, loaded, h⟩ := h
      rw [(comesTo_of_finishes h).2] at hsome
      cases hsome
  · rintro ⟨hinterrupt, stage, h⟩
    rw [(comesTo_of_stops h).2, escapes, if_neg hinterrupt]

/-- **What the status of a run tells.**  It is one where a run finishes with findings, and where a
run is stopped; two where a run is refused, and where it finishes without a module; and nothing
where it only informs, and where it finishes without findings.  A failure escapes from the runs that
are stopped, and from no others, unless it is the user's own interrupt.  And what stops a run is a
failure that the stage it is in lets through, which none is that the host has an answer to. -/
theorem status_tells (w : Workspace) (m : Plugin.Modules) (args : List String) :
    ((run w m args).status = 1 ↔
      (∃ result requested loaded, Finishes w m args result requested loaded ∧ loaded ≠ 0 ∧
        result.diagnostics ≠ []) ∨
      ∃ stage f, Stops w m args stage f) ∧
    ((run w m args).status = 2 ↔
      (∃ p, Refuses w args p) ∨ ∃ result requested, Finishes w m args result requested 0) ∧
    ((run w m args).status = 0 ↔
      Informs w args ∨ ∃ result requested loaded, Finishes w m args result requested loaded ∧
        loaded ≠ 0 ∧ result.diagnostics = []) ∧
    (∀ f, (run w m args).escaped = some f ↔
      f ≠ .interrupted keyboardInterrupt ∧ ∃ stage, Stops w m args stage f) ∧
    (∀ stage f, Stops w m args stage f → stage.lets f = true) ∧
    ∀ (stage : Stage) f, isRefusal f = true ∨ f = .yaml .malformed ∨ (∃ n, f = .badJobs n) →
      stage.lets f = false :=
  ⟨status_eq_one_iff, status_eq_two_iff, status_eq_zero_iff, fun _ => escaped_eq_some_iff,
    fun _ _ h => lets_of_stops h, fun _ _ h => not_lets_of_answered h⟩

/-- A configuration that is no text, a project that is no text, and a report for a directory that is
not there: a run of each is stopped, with the status that findings have. -/
theorem status_of_unanswered :
    ComesTo
      (run ⟨.dir [(".lintkit.yaml", .file ⟨[0xFF]⟩), ("m.py", .file ⟨[]⟩)], [], [], .bare⟩
        default ["--analyzers", "p.py", "--target", "m.py"])
      1 (some (.yaml .undecodable)) ∧
    ComesTo
      (run ⟨.dir [("m.lkproj", .file ⟨[0xFF]⟩)], [], [], .bare⟩
        default ["--analyzers", "p.py", "--target", "m.lkproj"])
      1 (some (.yaml .undecodable)) ∧
    ComesTo
      (run ⟨.dir [("m.py", .file ⟨[]⟩)], [], [], .bare⟩
        default ["--analyzers", "p.py", "--target", "m.py", "--output", "gone/report"])
      1 (some (.os ⟨.missing, "gone/report"⟩)) := by
  refine ⟨⟨?_, ?_⟩, ⟨?_, ?_⟩, ⟨?_, ?_⟩⟩ <;> decide +kernel

end LintHost.Command
