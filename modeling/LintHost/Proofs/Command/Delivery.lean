/-
What a run leaves behind.

A run touches the files in one place of its code only, where it writes its report, and it prints in
two: there, and where it only informs.  So whatever ends a run before it has a result leaves every
file as it was and prints nothing: `run_leaves`.  What is refused, and what is stopped before the
modules are loaded, leaves the modules as they were, too.

A run that has a result changes at most what lies at its destination.  `written` is what gets there:
the report and a final line break, or nothing where the report is empty or cannot be put into bytes.
On the console the same text loses its control sequences.
-/
import LintHost.Proofs.Command.Status
import LintHost.Proofs.Writing

namespace LintHost.Command

open LintHost.Outcome

/-- The file that a report goes to, where it does not go to the console. -/
def Settings.destination (s : Settings) : Option String :=
  s.output.filter fun path => !path.isEmpty

/-- What gets out of a report. -/
def written (report : String) : String :=
  if Text.holdsHalf report.toList then "" else closed report

variable {w : Workspace} {m : Plugin.Modules} {args : List String}

/-! ### Runs that end early -/

/-- Leaves every file as it was, and nothing on the console. -/
structure Traceless (w : Workspace) (o : Outcome) : Prop where
  workspace : o.workspace = w
  stdout : o.stdout = ""

theorem printed_empty : printed "" = "" := by
  rw [printed, show ("" : String).toList = [] from rfl, Text.plain_of_no_escape List.not_mem_nil]

theorem traceless_run (h : Traceless w (runStyled w m args)) : Traceless w (run w m args) := by
  refine ⟨h.workspace, ?_⟩
  show printed (runStyled w m args).stdout = ""
  rw [h.stdout, printed_empty]

theorem traceless_stopped (events : List Event) (stderr : String) (f : Failure) :
    Traceless w (stopped w m events stderr f) := by
  unfold stopped
  split_ifs <;> exact ⟨rfl, rfl⟩

theorem stopped_modules (events : List Event) (stderr : String) (f : Failure) :
    (stopped w m events stderr f).modules = m := by
  unfold stopped
  split_ifs <;> rfl

/-- A run that only informs changes nothing. -/
theorem run_of_informs (h : Informs w args) :
    (run w m args).workspace = w ∧ (run w m args).modules = m := by
  show (runStyled w m args).workspace = w ∧ (runStyled w m args).modules = m
  rw [runStyled]
  cases h with
  | help h =>
    rw [h]
    exact ⟨rfl, rfl⟩
  | version h =>
    rw [h]
    exact ⟨rfl, rfl⟩

theorem runStyled_of_refuses {p : UsageProblem} (h : Refuses w args p) :
    ∃ events, runStyled w m args = refused w m events p := by
  cases h with
  | commandLine h =>
    rw [runStyled, h]
    exact ⟨_, rfl⟩
  | loud h hloud =>
    rw [runStyled_of_request h, runWith, if_pos hloud]
    exact ⟨_, rfl⟩
  | settling h hcalm hplan hf =>
    rw [runStyled_of_request h]
    simp only [runWith, hcalm, hplan, hf, Bool.false_eq_true, if_false, if_true]
    exact ⟨_, rfl⟩
  | idle h hcalm hplan hpaths =>
    rw [runStyled_of_request h]
    simp only [runWith, hcalm, hplan, hpaths, List.isEmpty_nil, Bool.false_eq_true, if_false,
      if_true]
    exact ⟨_, rfl⟩

/-- A run that is stopped before it has a result ends there and then. -/
theorem runStyled_of_stops {stage : Stage} {f : Failure} (h : Stops w m args stage f)
    (hearly : stage ≠ .report) :
    ∃ m' events stderr, runStyled w m args = stopped w m' events stderr f ∧
      (stage = .commandLine ∨ stage = .settling → m' = m) := by
  cases h with
  | commandLine h =>
    rw [runStyled, h]
    exact ⟨m, _, _, rfl, fun _ => rfl⟩
  | settling h hcalm hplan hf =>
    rw [runStyled_of_request h]
    simp only [runWith, hcalm, hplan, hf, Bool.false_eq_true, if_false]
    exact ⟨m, _, _, rfl, fun _ => rfl⟩
  | loading settles h =>
    rw [runStyled_of_request settles.request, runWith_of_settles settles]
    simp only [perform, h]
    exact ⟨_, _, _, rfl, by simp⟩
  | analysis loads h =>
    rw [runStyled_of_request loads.request, runWith_of_settles loads.toSettles]
    simp only [perform, loads.loading, h]
    exact ⟨_, _, _, rfl, by simp⟩
  | report => exact absurd rfl hearly

/-- A run that is refused leaves no trace, and the modules as they were. -/
theorem traceless_of_refuses {p : UsageProblem} (h : Refuses w args p) :
    Traceless w (run w m args) ∧ (run w m args).modules = m := by
  obtain ⟨events, hrun⟩ := runStyled_of_refuses (m := m) h
  refine ⟨traceless_run ?_, ?_⟩
  · rw [hrun]
    exact ⟨rfl, rfl⟩
  · show (runStyled w m args).modules = m
    rw [hrun]
    rfl

/-- A run that is stopped before it has a result leaves no trace but of the modules it loaded. -/
theorem traceless_of_stops {stage : Stage} {f : Failure} (h : Stops w m args stage f)
    (hearly : stage ≠ .report) :
    Traceless w (run w m args) ∧
      (stage = .commandLine ∨ stage = .settling → (run w m args).modules = m) := by
  obtain ⟨m', events, stderr, hrun, hmodules⟩ := runStyled_of_stops h hearly
  refine ⟨traceless_run ?_, ?_⟩
  · rw [hrun]
    exact traceless_stopped _ _ _
  · intro hstage
    show (runStyled w m args).modules = m
    rw [hrun, stopped_modules, hmodules hstage]

/-! ### Runs with a result -/

/-- A run with a result finishes with it. -/
theorem runStyled_of_analyzes {s : Settings} {p : Plan} {loaded : Nat} {result : AnalysisResult}
    (h : Analyzes w m args s p loaded result) :
    ∃ m' events stderr, runStyled w m args = finish w m' s p loaded events stderr result := by
  obtain ⟨loads, hanalysis⟩ := h
  rw [runStyled_of_request loads.request, runWith_of_settles loads.toSettles]
  simp only [perform, loads.loading, hanalysis]
  exact ⟨_, _, _, rfl⟩

/-- A run with a report hands it over. -/
theorem runStyled_of_reportOf {s : Settings} {p : Plan} {loaded : Nat} {result : AnalysisResult}
    {report : String} (h : Analyzes w m args s p loaded result)
    (hreport : reportOf w s p result = .ok report) :
    ∃ m' events stderr,
      runStyled w m args = deliver w m' s p loaded events stderr result report := by
  obtain ⟨m', events, stderr, hrun⟩ := runStyled_of_analyzes h
  exact ⟨m', events, stderr, hrun.trans (finish_of_reportOf _ _ _ hreport)⟩

section Deliver

variable {s : Settings} {p : Plan} {result : AnalysisResult} {loaded : Nat} {events : List Event}
  {stderr report : String}

/-- An empty path is none. -/
theorem isEmpty_of_destination {path : String} (h : s.destination = none)
    (hout : s.output = some path) : path.isEmpty = true := by
  rw [Settings.destination, hout] at h
  simpa using h

theorem output_of_destination {path : String} (h : s.destination = some path) :
    s.output = some path ∧ path.isEmpty = false := by
  unfold Settings.destination at h
  obtain ⟨hout, hne⟩ := Option.filter_eq_some_iff.mp h
  exact ⟨hout, by simpa using hne⟩

/-- A report for the console is all that a run prints. -/
theorem deliver_console (h : s.destination = none) :
    (deliver w m s p loaded events stderr result report).workspace = w ∧
      (deliver w m s p loaded events stderr result report).stdout = written report := by
  have hprinted : ∀ {status : Nat} {last : String} {events' : List Event},
      let o : Outcome :=
        if !Text.holdsHalf report.toList then
          ⟨status, closed report, last, none, events', w, m, none⟩
        else stopped w m events stderr .halfInText
      o.workspace = w ∧ o.stdout = written report := by
    intro status last events'
    unfold written
    cases Text.holdsHalf report.toList with
    | false => exact ⟨rfl, rfl⟩
    | true =>
      have hstopped := traceless_stopped (w := w) (m := m) events stderr .halfInText
      exact ⟨hstopped.workspace, hstopped.stdout⟩
  simp only [deliver]
  cases hout : s.output with
  | none => exact hprinted
  | some path =>
    simp only [isEmpty_of_destination h hout, if_true]
    exact hprinted

/-- A report whose file cannot be written leaves everything as it was. -/
theorem deliver_unwritable {path : String} {f : Failure} (h : s.destination = some path)
    (hwrite : w.writeFile (Path.ofString path)
      (Text.Utf8.encode (written report).toList) = .error f) :
    Traceless w (deliver w m s p loaded events stderr result report) := by
  obtain ⟨hout, hne⟩ := output_of_destination h
  have herror := fun bytes => (Workspace.writeFile_eq_error_iff bytes).mp hwrite
  simp only [deliver, hout, hne, Bool.false_eq_true, if_false, herror]
  exact traceless_stopped _ _ _

/-- A report that is written is in its file, and not on the console. -/
theorem deliver_written {path : String} {w' : Workspace} (h : s.destination = some path)
    (hwrite : w.writeFile (Path.ofString path)
      (Text.Utf8.encode (written report).toList) = .ok w') :
    Traceless w' (deliver w m s p loaded events stderr result report) := by
  obtain ⟨hout, hne⟩ := output_of_destination h
  simp only [deliver, hout, hne, Bool.false_eq_true, if_false]
  unfold written at hwrite
  cases hhalf : Text.holdsHalf report.toList with
  | false =>
    simp only [hhalf, Bool.false_eq_true, if_false] at hwrite
    simp only [Bool.not_false, if_true, hwrite]
    exact ⟨rfl, rfl⟩
  | true =>
    simp only [hhalf, if_true] at hwrite
    simp only [Bool.not_true, Bool.false_eq_true, if_false, hwrite]
    have hstopped := traceless_stopped (w := w') (m := m) events stderr .halfInText
    exact ⟨hstopped.workspace, hstopped.stdout⟩

end Deliver

section Run

variable {s : Settings} {p : Plan} {loaded : Nat} {result : AnalysisResult} {report : String}

/-- A report that is not written out leaves no trace. -/
theorem run_unreported {f : Failure} (h : Analyzes w m args s p loaded result)
    (hreport : reportOf w s p result = .error f) : Traceless w (run w m args) := by
  obtain ⟨m', events, stderr, hrun⟩ := runStyled_of_analyzes h
  unfold reportOf at hreport
  refine traceless_run ?_
  rw [hrun]
  simp only [finish, hreport]
  exact traceless_stopped _ _ _

/-- A report for the console leaves the files alone, and is printed. -/
theorem run_console (h : Analyzes w m args s p loaded result)
    (hreport : reportOf w s p result = .ok report) (hdest : s.destination = none) :
    (run w m args).workspace = w ∧ (run w m args).stdout = printed (written report) := by
  obtain ⟨m', events, stderr, hrun⟩ := runStyled_of_reportOf h hreport
  have hdeliver : (runStyled w m args).workspace = w ∧
      (runStyled w m args).stdout = written report := by
    rw [hrun]
    exact deliver_console hdest
  refine ⟨hdeliver.1, ?_⟩
  show printed (runStyled w m args).stdout = _
  rw [hdeliver.2]

/-- A report for a file that cannot be written leaves no trace. -/
theorem run_unwritable {path : String} {f : Failure} (h : Analyzes w m args s p loaded result)
    (hreport : reportOf w s p result = .ok report) (hdest : s.destination = some path)
    (hwrite : w.writeFile (Path.ofString path)
      (Text.Utf8.encode (written report).toList) = .error f) :
    Traceless w (run w m args) := by
  obtain ⟨m', events, stderr, hrun⟩ := runStyled_of_reportOf h hreport
  refine traceless_run ?_
  rw [hrun]
  exact deliver_unwritable hdest hwrite

/-- A report for a file is in the file, nothing else has changed, and nothing is printed. -/
theorem run_file {path : String} {w' : Workspace} (h : Analyzes w m args s p loaded result)
    (hreport : reportOf w s p result = .ok report) (hdest : s.destination = some path)
    (hwrite : w.writeFile (Path.ofString path)
      (Text.Utf8.encode (written report).toList) = .ok w') :
    (run w m args).stdout = "" ∧ ∃ place, w.SameBut place (run w m args).workspace ∧
      (run w m args).workspace.locate (Path.ofString path) =
        .ok (place, .file ⟨Text.Utf8.encode (written report).toList⟩) ∧
      (run w m args).workspace.openFile (Path.ofString path) =
        .ok ⟨Text.Utf8.encode (written report).toList⟩ := by
  obtain ⟨m', events, stderr, hrun⟩ := runStyled_of_reportOf h hreport
  have hdeliver : Traceless w' (runStyled w m args) := by
    rw [hrun]
    exact deliver_written hdest hwrite
  have hworkspace : (run w m args).workspace = w' := hdeliver.workspace
  have hstdout : (run w m args).stdout = "" := by
    show printed (runStyled w m args).stdout = ""
    rw [hdeliver.stdout, printed_empty]
  rw [hworkspace]
  exact ⟨hstdout, Workspace.writeFile_eq_ok hwrite⟩

end Run

/-- A text gets out of a run: it is printed, or it is the content of the file that it was for, and
then nothing is printed. -/
inductive Delivers (o : Outcome) (s : Settings) (text : String) : Prop
  | console (hdest : s.destination = none) (hstdout : o.stdout = printed text) : Delivers o s text
  | file {path : String} (hdest : s.destination = some path)
      (hcontent : o.workspace.openFile (Path.ofString path) =
        .ok ⟨Text.Utf8.encode text.toList⟩)
      (hstdout : o.stdout = "") : Delivers o s text

theorem written_of_whole {report : String} (h : Text.holdsHalf report.toList = false) :
    written report = closed report := by
  rw [written, h]
  rfl

/-- A report that gets out goes to the console, or its file can be written. -/
theorem delivering_eq_ok_iff {s : Settings} {report : String} :
    delivering w s report = .ok () ↔ Text.holdsHalf report.toList = false ∧
      ∀ path, s.destination = some path → ∃ w', w.writeFile (Path.ofString path)
        (Text.Utf8.encode (written report).toList) = .ok w' := by
  have hwritten : (if !Text.holdsHalf report.toList then closed report else "") =
      written report := by
    unfold written
    cases Text.holdsHalf report.toList <;> rfl
  cases hdest : s.destination with
  | none =>
    have hconsole : delivering w s report = whole report := by
      unfold delivering
      cases hout : s.output with
      | none => rfl
      | some path => simp only [isEmpty_of_destination hdest hout, if_true]
    rw [hconsole, whole_eq_ok_iff]
    simp
  | some path =>
    obtain ⟨hout, hne⟩ := output_of_destination hdest
    unfold delivering
    simp only [hout, hne, hwritten, Bool.false_eq_true, if_false, bind_eq_ok_iff, whole_eq_ok_iff]
    constructor
    · rintro ⟨w', hwrite, hwhole⟩
      refine ⟨hwhole, ?_⟩
      intro path' hpath
      rw [← Option.some.inj hpath]
      exact ⟨w', hwrite⟩
    · rintro ⟨hwhole, hfile⟩
      obtain ⟨w', hwrite⟩ := hfile path rfl
      exact ⟨w', hwrite, hwhole⟩

/-- A run with a report delivers it, if it has a place to go to. -/
theorem delivers_of_analyzes {s : Settings} {p : Plan} {loaded : Nat} {result : AnalysisResult}
    {report : String} (h : Analyzes w m args s p loaded result)
    (hreport : reportOf w s p result = .ok report)
    (hfile : ∀ path, s.destination = some path → ∃ w', w.writeFile (Path.ofString path)
      (Text.Utf8.encode (written report).toList) = .ok w') :
    Delivers (run w m args) s (written report) := by
  cases hdest : s.destination with
  | none => exact .console hdest (run_console h hreport hdest).2
  | some path =>
    obtain ⟨w', hwrite⟩ := hfile path hdest
    obtain ⟨hstdout, place, -, -, hcontent⟩ := run_file h hreport hdest hwrite
    exact .file hdest hcontent hstdout

/-- **A run that finishes delivers its report.** -/
theorem delivers_of_finishes {result : AnalysisResult} {requested loaded : Nat}
    (h : Finishes w m args result requested loaded) :
    ∃ s p report, Analyzes w m args s p loaded result ∧ requested = p.paths.length ∧
      reportOf w s p result = .ok report ∧ Delivers (run w m args) s (closed report) := by
  cases h with
  | @intro s p _ _ analyzes hreporting =>
    obtain ⟨report, hreport, hdelivering⟩ := bind_eq_ok_iff.mp hreporting
    obtain ⟨hwhole, hfile⟩ := delivering_eq_ok_iff.mp hdelivering
    have hdelivers := delivers_of_analyzes analyzes hreport hfile
    rw [written_of_whole hwhole] at hdelivers
    exact ⟨s, p, report, analyzes, rfl, hreport, hdelivers⟩

/-- **A run that ends before it has a result leaves no trace, nor does one whose report is not
written out; and a run with a report changes at most the file that the report goes to.** -/
theorem run_leaves (w : Workspace) (m : Plugin.Modules) (args : List String) :
    (Informs w args ∨ (∃ p, Refuses w args p) ∨
      (∃ stage f, Stops w m args stage f ∧ stage ≠ .report) ∨
      ∃ s p loaded result, Analyzes w m args s p loaded result) ∧
    (Informs w args → (run w m args).workspace = w ∧ (run w m args).modules = m) ∧
    (∀ p, Refuses w args p → (run w m args).workspace = w ∧ (run w m args).stdout = "" ∧
      (run w m args).modules = m) ∧
    (∀ stage f, Stops w m args stage f → stage ≠ .report →
      (run w m args).workspace = w ∧ (run w m args).stdout = "" ∧
      (stage = .commandLine ∨ stage = .settling → (run w m args).modules = m)) ∧
    ∀ s p loaded result, Analyzes w m args s p loaded result →
      (∀ f, reportOf w s p result = .error f →
        (run w m args).workspace = w ∧ (run w m args).stdout = "") ∧
      ∀ report, reportOf w s p result = .ok report →
        (s.destination = none → (run w m args).workspace = w) ∧
        ∀ path, s.destination = some path →
          (run w m args).stdout = "" ∧
          ((∃ f, ∀ bytes, w.writeFile (Path.ofString path) bytes = .error f) ∧
              (run w m args).workspace = w ∨
            ∃ place, w.SameBut place (run w m args).workspace ∧
              (run w m args).workspace.locate (Path.ofString path) =
                .ok (place, .file ⟨Text.Utf8.encode (written report).toList⟩)) := by
  refine ⟨?_, fun h => run_of_informs h, ?_, ?_, ?_⟩
  · rcases informs_or_refuses_or_stops_or_finishes w m args with h | h | ⟨stage, f, h⟩ | h
    · exact Or.inl h
    · exact Or.inr (Or.inl h)
    · by_cases hstage : stage = .report
      · subst hstage
        cases h with
        | report analyzes _ => exact Or.inr (Or.inr (Or.inr ⟨_, _, _, _, analyzes⟩))
      · exact Or.inr (Or.inr (Or.inl ⟨stage, f, h, hstage⟩))
    · obtain ⟨result, requested, loaded, ⟨analyzes, -⟩⟩ := h
      exact Or.inr (Or.inr (Or.inr ⟨_, _, _, _, analyzes⟩))
  · intro p h
    obtain ⟨htraceless, hmodules⟩ := traceless_of_refuses (m := m) h
    exact ⟨htraceless.workspace, htraceless.stdout, hmodules⟩
  · intro stage f h hearly
    obtain ⟨htraceless, hmodules⟩ := traceless_of_stops h hearly
    exact ⟨htraceless.workspace, htraceless.stdout, hmodules⟩
  · intro s p loaded result h
    refine ⟨fun f hreport => ?_, fun report hreport => ?_⟩
    · have htraceless := run_unreported h hreport
      exact ⟨htraceless.workspace, htraceless.stdout⟩
    refine ⟨fun hdest => (run_console h hreport hdest).1, ?_⟩
    intro path hdest
    cases hwrite : w.writeFile (Path.ofString path)
        (Text.Utf8.encode (written report).toList) with
    | error f =>
      have htraceless := run_unwritable h hreport hdest hwrite
      have hnever := fun bytes => (Workspace.writeFile_eq_error_iff bytes).mp hwrite
      exact ⟨htraceless.stdout, Or.inl ⟨⟨f, hnever⟩, htraceless.workspace⟩⟩
    | ok w' =>
      obtain ⟨hstdout, place, hsame, hthere, -⟩ := run_file h hreport hdest hwrite
      exact ⟨hstdout, Or.inr ⟨place, hsame, hthere⟩⟩

end LintHost.Command
