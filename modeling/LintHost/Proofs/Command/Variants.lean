/-
What has no say in a report.

How much a run tells of its progress, how much of it goes on at a time and where its report goes
make a run another run, and leave the report alone.  `Agree` says of two command lines that they
differ in nothing else.  Their runs end alike, and get a result alike, which is the same result with
the same report: `report_of_variants`.  A report about rules and places is the same even where only
one of the runs is verbose.

What differs is the way out.  A file gets the text as it is, and the console gets it without control
sequences, so what is printed is the content of the file only where there are none of them.
-/
import LintHost.Proofs.Command.Composition
import LintHost.Proofs.Report.Sarif

namespace LintHost.Command

open LintHost.Outcome

/-- Options without a say in the result of a run. -/
def Opt.isAside : Opt → Bool
  | .verbose | .quiet | .output | .jobs => true
  | _ => false

/-- What is given besides them. -/
def besides (given : List Given) : List Given := given.filter fun g => !g.option.isAside

/-- The options without a say can be taken as they are given: no run is both quiet and verbose, the
number of jobs is one, and the report has a place to go to. -/
structure Fits (w : Workspace) (given : List Given) : Prop where
  calm : valuesOf .quiet given ≠ [] → valuesOf .verbose given = []
  jobs : ∀ text ∈ (valuesOf .jobs given).getLast?, ∃ n, checkJobs text = .ok n
  output : ∀ path ∈ (valuesOf .output given).getLast?, path ≠ "" →
    ∃ w', w.writeFile (Path.ofString path) [] = .ok w'

/-- Two command lines differ at most in options without a say. -/
inductive Agree (w : Workspace) (args args' : List String) : Prop
  /-- Neither can be taken apart. -/
  | unreadable {e e' : UsageProblem} (h : parse args = .error e) (h' : parse args' = .error e') :
      Agree w args args'
  | told {p p' : Parsed} (h : parse args = .ok p) (h' : parse args' = .ok p')
      (hbesides : besides p.given = besides p'.given) (hextra : p.extra = p'.extra)
      (fits : Fits w p.given) (fits' : Fits w p'.given) : Agree w args args'

/-- Two settings differ at most in options without a say. -/
def Settings.Agree (s s' : Settings) : Prop := ∀ o, o.isAside = false → s.only o = s'.only o

variable {w : Workspace} {m : Plugin.Modules} {args args' : List String} {s s' : Settings}
  {given given' : List Given}

theorem Agree.symm (h : Agree w args args') : Agree w args' args := by
  cases h with
  | unreadable h h' => exact .unreadable h' h
  | told h h' hbesides hextra fits fits' =>
    exact .told h' h hbesides.symm hextra.symm fits' fits

/-! ### Options -/

theorem valuesOf_besides {o : Opt} (ho : o.isAside = false) (given : List Given) :
    valuesOf o (besides given) = valuesOf o given := by
  unfold valuesOf besides
  rw [List.filter_filter]
  congr 1
  refine List.filter_congr fun g _ => ?_
  by_cases hg : g.option = o
  · simp [hg, ho]
  · simp [hg]

/-- Options with a say come to the same. -/
theorem asks_congr (h : besides given = besides given') {o : Opt} (ho : o.isAside = false) :
    asks w given o = asks w given' o := by
  rw [asks, asks, ← valuesOf_besides ho given, h, valuesOf_besides ho]

/-- A path that can be written is taken. -/
theorem checkPath_of_writeFile {path : String} {bytes : List UInt8} {w' : Workspace}
    (h : w.writeFile (Path.ofString path) bytes = .ok w') :
    checkPath w .output ⟨"File", false, false⟩ path = .ok path := by
  obtain ⟨hfault, hnot⟩ := Workspace.not_dir_of_writeFile h
  unfold checkPath
  rw [hfault]
  cases hloc : w.locateText path with
  | error e => rfl
  | ok found =>
    obtain ⟨place, t⟩ := found
    simp [hnot place t hloc]

/-- So is the empty path. -/
theorem checkPath_empty (w : Workspace) :
    checkPath w .output ⟨"File", false, false⟩ "" = .ok "" := rfl

/-- Options without a say come to something. -/
theorem asks_of_fits (h : Fits w given) {o : Opt} (ho : o.isAside = true) :
    ∃ t, asks w given o = .ok t := by
  unfold asks take
  cases o with
  | verbose | quiet => exact ⟨_, rfl⟩
  | output =>
    simp only
    split_ifs with hempty
    · exact ⟨_, rfl⟩
    · have hlast := getLast?_of_isEmpty hempty
      have hpath : checkPath w .output ⟨"File", false, false⟩
          ((valuesOf .output given).getLast?.getD "") =
            .ok ((valuesOf .output given).getLast?.getD "") := by
        by_cases hnone : (valuesOf .output given).getLast?.getD "" = ""
        · rw [hnone]
          exact checkPath_empty w
        · obtain ⟨w', hwrite⟩ := h.output _ hlast hnone
          exact checkPath_of_writeFile hwrite
      exact ⟨_, bind_eq_ok_iff.mpr ⟨_, hpath, rfl⟩⟩
  | jobs =>
    simp only
    split_ifs with hempty
    · exact ⟨_, rfl⟩
    · obtain ⟨n, hn⟩ := h.jobs _ (getLast?_of_isEmpty hempty)
      exact ⟨_, bind_eq_ok_iff.mpr ⟨n, hn, rfl⟩⟩
  | analyzers | target | format | config | version | help => cases ho

/-! ### Command lines -/

/-- Options with a say are checked in the same order. -/
theorem filter_checkOrder_congr (h : besides given = besides given') :
    ((checkOrder given).filter fun o => !o.isAside) =
      (checkOrder given').filter fun o => !o.isAside := by
  have hoptions : ∀ given : List Given,
      ((given.map (·.option)).filter fun o => !o.isAside) = (besides given).map (·.option) := by
    intro given
    rw [besides, List.filter_map]
    rfl
  rw [filter_checkOrder, filter_checkOrder, hoptions, hoptions, h]

/-- Command lines that agree are refused for the same. -/
theorem settingsOf_eq_error_of_agree {p p' : Parsed} {r : Refusal}
    (hbesides : besides p.given = besides p'.given) (hextra : p.extra = p'.extra)
    (fits : Fits w p.given) (fits' : Fits w p'.given) (h : settingsOf w p = .error r) :
    settingsOf w p' = .error r := by
  have haside : ∀ {given : List Given}, Fits w given → ∀ o ∈ checkOrder given,
      (!o.isAside) = false → ∃ t, asks w given o = .ok t := by
    intro given hfits o _ ho
    exact asks_of_fits hfits (by simpa using ho)
  have hsame : ∀ o ∈ (checkOrder p'.given).filter (fun o => !o.isAside),
      asks w p.given o = asks w p'.given o := by
    intro o ho
    exact asks_congr hbesides (by simpa using (List.mem_filter.mp ho).2)
  rw [settingsOf_eq_error_iff] at h ⊢
  rw [← mapM_filter_eq_error_iff (haside fits)] at h
  rw [← mapM_filter_eq_error_iff (haside fits')]
  rw [filter_checkOrder_congr hbesides, mapM_congr hsame] at h
  refine h.imp id ?_
  rintro ⟨hasks, hmore, rfl⟩
  rw [hextra] at hmore ⊢
  refine ⟨?_, hmore, rfl⟩
  intro o
  cases ho : o.isAside with
  | true => exact asks_of_fits fits' ho
  | false =>
    rw [← asks_congr hbesides ho]
    exact hasks o

theorem settingsOf_of_agree {p p' : Parsed}
    (hbesides : besides p.given = besides p'.given) (hextra : p.extra = p'.extra)
    (fits : Fits w p.given) (fits' : Fits w p'.given) (h : settingsOf w p = .ok s) :
    ∃ s', settingsOf w p' = .ok s' ∧ s.Agree s' := by
  cases h' : settingsOf w p' with
  | error r =>
    rw [settingsOf_eq_error_of_agree hbesides.symm hextra.symm fits' fits h'] at h
    cases h
  | ok s' =>
    refine ⟨s', rfl, ?_⟩
    intro o ho
    have hasks := (settingsOf_eq_ok_iff.mp h).2 o
    rw [asks_congr hbesides ho, (settingsOf_eq_ok_iff.mp h').2 o] at hasks
    exact (Except.ok.inj hasks).symm

/-- What two command lines come to alike: they are refused, or fail with the same, or ask for the
same text, or for a run with settings that agree. -/
inductive Alike : Except Refusal Request → Except Refusal Request → Prop
  | usage (e e' : UsageProblem) : Alike (.error (.usage e)) (.error (.usage e'))
  | failure (f : Failure) : Alike (.error (.failure f)) (.error (.failure f))
  | help : Alike (.ok .help) (.ok .help)
  | version : Alike (.ok .version) (.ok .version)
  | run {s s' : Settings} (h : s.Agree s') : Alike (.ok (.run s)) (.ok (.run s'))

theorem find?_isEager_besides (given : List Given) :
    ((besides given).find? fun g => g.option.isEager) =
      given.find? fun g => g.option.isEager := by
  rw [besides, List.find?_filter]
  congr 1
  funext g
  cases g.option <;> rfl

/-- Command lines that agree come to something alike. -/
theorem alike_of_agree (h : Agree w args args') : Alike (request w args) (request w args') := by
  cases h with
  | @unreadable e e' h h' =>
    rw [request, h, request, h']
    exact .usage e e'
  | @told p p' h h' hbesides hextra fits fits' =>
    rw [request_of_parse h, request_of_parse h', ← find?_isEager_besides p.given, hbesides,
      find?_isEager_besides]
    cases p'.given.find? fun g => g.option.isEager with
    | some g =>
      simp only
      split_ifs
      · exact .help
      · exact .version
    | none =>
      simp only
      cases hs : settingsOf w p with
      | error r =>
        rw [settingsOf_eq_error_of_agree hbesides hextra fits fits' hs]
        cases r with
        | usage e => exact .usage e e
        | failure f => exact .failure f
      | ok s =>
        obtain ⟨s', hs', hagree⟩ := settingsOf_of_agree hbesides hextra fits fits' hs
        rw [hs']
        exact .run hagree

/-! ### Runs -/

theorem Settings.Agree.plan_eq (h : s.Agree s') : plan w s = plan w s' := by
  have hanalyzers : s.analyzers = s'.analyzers := (Settings.mk.inj (h .analyzers rfl)).1
  have hformat : s.format = s'.format := (Settings.mk.inj (h .format rfl)).2.2.1
  have hconfig : s.config = s'.config := (Settings.mk.inj (h .config rfl)).2.2.2.2.2.2.2
  unfold plan chooseFormat
  rw [hanalyzers, hformat, hconfig]

/-- The number of jobs has no say in what an analysis comes to. -/
theorem Settings.Agree.analyze_outcome (h : s.Agree s') {p : Plan} {plugins : List Plugin.Loaded}
    {errors : List String} (hjobs : 1 ≤ s.jobs.getD p.engine.jobs)
    (hjobs' : 1 ≤ s'.jobs.getD p.engine.jobs) :
    (analyze w s p plugins errors).outcome = (analyze w s' p plugins errors).outcome := by
  have htarget : s.target = s'.target := (Settings.mk.inj (h .target rfl)).2.1
  unfold analyze
  rw [Engine.runTarget_outcome, Engine.runTarget_outcome, htarget]
  congr 1
  funext units
  rw [Engine.run_outcome w p.targets hjobs, Engine.run_outcome w p.targets hjobs']

/-- A run of a command line that agrees with another is not both verbose and quiet, and its report
can be written. -/
theorem fits_of_agree (h : Agree w args args') (hrequest : request w args = .ok (.run s)) :
    (s.verbose && s.quiet) = false ∧ ∀ path, s.destination = some path → ∀ bytes,
      ∃ w', w.writeFile (Path.ofString path) bytes = .ok w' := by
  obtain ⟨p, hparse, -, -, hasks⟩ := request_eq_run_iff.mp hrequest
  cases h with
  | unreadable h _ =>
    rw [h] at hparse
    cases hparse
  | @told q _ h _ _ _ fits _ =>
    have hsame : p = q := Except.ok.inj (hparse.symm.trans h)
    subst hsame
    refine ⟨?_, ?_⟩
    · rw [verbose_of_asks (hasks .verbose), quiet_of_asks (hasks .quiet)]
      cases hquiet : valuesOf .quiet p.given with
      | nil => simp
      | cons v more =>
        rw [fits.calm (by simp [hquiet])]
        rfl
    · intro path hdest bytes
      obtain ⟨hout, hne⟩ := output_of_destination hdest
      rw [output_of_asks (hasks .output)] at hout
      obtain ⟨w', hwrite⟩ := fits.output path hout (by simpa using hne)
      cases hbytes : w.writeFile (Path.ofString path) bytes with
      | ok w'' => exact ⟨w'', rfl⟩
      | error f =>
        rw [(Workspace.writeFile_eq_error_iff []).mp hbytes] at hwrite
        cases hwrite

theorem settles_of_agree {p : Plan} (h : Agree w args args') (hsettles : Settles w args s p) :
    ∃ s', Settles w args' s' p ∧ s.Agree s' := by
  have halike := alike_of_agree h
  rw [hsettles.request] at halike
  generalize hrequest : request w args' = r at halike
  cases halike with
  | @run _ s' hagree =>
    refine ⟨s', ⟨hrequest, (fits_of_agree h.symm hrequest).1, ?_, hsettles.paths⟩, hagree⟩
    rw [← hagree.plan_eq]
    exact hsettles.plan

theorem analyzes_of_agree {p : Plan} {loaded : Nat} {result : AnalysisResult}
    (h : Agree w args args') (hanalyzes : Analyzes w m args s p loaded result) :
    ∃ s', Analyzes w m args' s' p loaded result ∧ s.Agree s' := by
  obtain ⟨loads, hanalysis⟩ := hanalyzes
  obtain ⟨s', hsettles, hagree⟩ := settles_of_agree h loads.toSettles
  refine ⟨s', .intro ⟨hsettles, loads.loading⟩ ?_, hagree⟩
  rw [← hagree.analyze_outcome loads.one_le_jobs hsettles.one_le_jobs]
  exact hanalysis

theorem Analyzes.settles {p : Plan} {loaded : Nat} {result : AnalysisResult}
    (h : Analyzes w m args s p loaded result) : Settles w args s p := by
  obtain ⟨loads, -⟩ := h
  exact loads.toSettles

/-! ### Reports -/

/-- Two command lines differ at most in options without a say in the report: neither is verbose
without the other, unless the report is about rules and places. -/
structure Variant (w : Workspace) (args args' : List String) : Prop where
  agree : Agree w args args'
  loudness : ∀ s s' p, Settles w args s p → Settles w args' s' p →
    s.verbose = s'.verbose ∨ p.format = .sarif

theorem Variant.symm (h : Variant w args args') : Variant w args' args :=
  ⟨h.agree.symm, fun s s' p hs hs' => (h.loudness s' s p hs' hs).imp_left Eq.symm⟩

/-- Only a report as text is verbose. -/
theorem reportOf_congr {p : Plan} (h : s.verbose = s'.verbose ∨ p.format = .sarif)
    (result : AnalysisResult) : reportOf w s p result = reportOf w s' p result := by
  rcases h with h | h
  · rw [reportOf, reportOf, h]
  · rw [reportOf, reportOf, h]
    rfl

theorem Variant.reportOf_eq {p : Plan} {loaded : Nat} {result : AnalysisResult}
    (h : Variant w args args') (hanalyzes : Analyzes w m args s p loaded result)
    (hanalyzes' : Analyzes w m args' s' p loaded result) :
    reportOf w s p result = reportOf w s' p result :=
  reportOf_congr (h.loudness s s' p hanalyzes.settles hanalyzes'.settles) result

/-- A report gets out in the same cases. -/
theorem Variant.reporting_of_ok {p : Plan} {loaded : Nat} {result : AnalysisResult}
    (h : Variant w args args') (hanalyzes : Analyzes w m args s p loaded result)
    (hanalyzes' : Analyzes w m args' s' p loaded result) (hok : reporting w s p result = .ok ()) :
    reporting w s' p result = .ok () := by
  obtain ⟨report, hreport, hdelivering⟩ := bind_eq_ok_iff.mp hok
  have hwhole := (delivering_eq_ok_iff.mp hdelivering).1
  rw [h.reportOf_eq hanalyzes hanalyzes'] at hreport
  refine bind_eq_ok_iff.mpr ⟨report, hreport, delivering_eq_ok_iff.mpr ⟨hwhole, ?_⟩⟩
  intro path hdest
  exact (fits_of_agree h.agree.symm hanalyzes'.settles.request).2 path hdest _

/-- The one run finishes if the other does, with the same. -/
theorem finishes_of_variant {result : AnalysisResult} {requested loaded : Nat}
    (h : Variant w args args') (hfinishes : Finishes w m args result requested loaded) :
    Finishes w m args' result requested loaded := by
  obtain ⟨hanalyzes, hok⟩ := hfinishes
  obtain ⟨s', hanalyzes', -⟩ := analyzes_of_agree h.agree hanalyzes
  exact .intro hanalyzes' (h.reporting_of_ok hanalyzes hanalyzes' hok)

/-- The one run is refused if the other is. -/
theorem refuses_of_agree (h : Agree w args args') {p : UsageProblem} (hrefuses : Refuses w args p) :
    ∃ p', Refuses w args' p' := by
  have halike := alike_of_agree h
  generalize hrequest' : request w args' = r at halike
  cases hrefuses with
  | commandLine hrequest =>
    rw [hrequest] at halike
    cases halike with
    | usage _ e' => exact ⟨e', .commandLine hrequest'⟩
  | loud hrequest hloud =>
    rw [(fits_of_agree h hrequest).1] at hloud
    cases hloud
  | settling hrequest _ hplan hf =>
    rw [hrequest] at halike
    cases halike with
    | run hagree =>
      rw [hagree.plan_eq] at hplan
      exact ⟨_, .settling hrequest' (fits_of_agree h.symm hrequest').1 hplan hf⟩
  | idle hrequest _ hplan hpaths =>
    rw [hrequest] at halike
    cases halike with
    | run hagree =>
      rw [hagree.plan_eq] at hplan
      exact ⟨_, .idle hrequest' (fits_of_agree h.symm hrequest').1 hplan hpaths⟩

/-- The one run only informs if the other does. -/
theorem informs_of_agree (h : Agree w args args') (hinforms : Informs w args) :
    Informs w args' := by
  have halike := alike_of_agree h
  generalize hrequest' : request w args' = r at halike
  cases hinforms with
  | help hrequest =>
    rw [hrequest] at halike
    cases halike with
    | help => exact .help hrequest'
  | version hrequest =>
    rw [hrequest] at halike
    cases halike with
    | version => exact .version hrequest'

theorem status_of_informs (h : Agree w args args') (hinforms : Informs w args) :
    (run w m args).status = (run w m args').status := by
  rw [(comesTo_of_informs hinforms).1, (comesTo_of_informs (informs_of_agree h hinforms)).1]

theorem status_of_refuses (h : Agree w args args') {p : UsageProblem}
    (hrefuses : Refuses w args p) : (run w m args).status = (run w m args').status := by
  obtain ⟨p', hrefuses'⟩ := refuses_of_agree h hrefuses
  rw [(comesTo_of_refuses hrefuses).1, (comesTo_of_refuses hrefuses').1]

theorem status_of_finishing {result : AnalysisResult} {requested loaded : Nat}
    (h : Variant w args args') (hfinishes : Finishes w m args result requested loaded) :
    (run w m args).status = (run w m args').status := by
  rw [status_of_finishes hfinishes, status_of_finishes (finishes_of_variant h hfinishes)]

/-- **Runs of variants end with the same status.** -/
theorem status_of_variant (h : Variant w args args') :
    (run w m args).status = (run w m args').status := by
  rcases informs_or_refuses_or_stops_or_finishes w m args with hi | ⟨p, hr⟩ | ⟨_, f, hs⟩ | hf
  · exact status_of_informs h.agree hi
  · exact status_of_refuses h.agree hr
  · -- Where the one run is stopped, the other could only inform, be refused or finish if both did.
    rcases informs_or_refuses_or_stops_or_finishes w m args' with hi | ⟨p, hr⟩ | ⟨_, f', hs'⟩ | hf
    · exact (status_of_informs h.agree.symm hi).symm
    · exact (status_of_refuses h.agree.symm hr).symm
    · rw [(comesTo_of_stops hs).1, (comesTo_of_stops hs').1]
    · obtain ⟨result, requested, loaded, hf⟩ := hf
      exact (status_of_finishing h.symm hf).symm
  · obtain ⟨result, requested, loaded, hf⟩ := hf
    exact status_of_finishing h hf

/-! ### What is printed of a report -/

/-- A character of what gets out of a report is in the report, or it is the final new line. -/
theorem mem_of_mem_written {report : String} {c : Char} (h : c ∈ (written report).toList) :
    c ∈ report.toList ∨ c = '\n' := by
  unfold written closed at h
  split_ifs at h with hhalf hempty
  · cases h
  · cases h
  · rw [String.toList_append, List.mem_append] at h
    refine h.imp_right ?_
    intro hlast
    simpa using hlast

/-- What holds no control sequence is printed as it is. -/
theorem printed_of_no_escape {text : String} (h : Text.escape ∉ text.toList) :
    printed text = text := by
  rw [printed, Text.plain_of_no_escape h, String.ofList_toList]

/-- The text of a document holds none, for its characters are printable. -/
theorem escape_not_mem_sarif {p : Plan} {result : AnalysisResult} {report : String}
    (hformat : p.format = .sarif) (h : reportOf w s p result = .ok report) :
    Text.escape ∉ (written report).toList := by
  intro hmem
  rcases mem_of_mem_written hmem with hreport | hlast
  · rw [reportOf, hformat] at h
    exact absurd ((Report.tidy_of_renderSarif h).chars _ hreport) (by decide)
  · exact absurd hlast (by decide)

/-- **Variants of a run have the same report.**  They end with the same status; one has a result if
the other has, and it is the same; the report about it is written out for both or for neither, and
then the same text is delivered by both.  Control sequences in it are not printed, so what is
printed is what a file gets where it holds none, as in any document. -/
theorem report_of_variants (h : Variant w args args') :
    (run w m args).status = (run w m args').status ∧
    (∀ p loaded result, (∃ s, Analyzes w m args s p loaded result) ↔
      ∃ s', Analyzes w m args' s' p loaded result) ∧
    ∀ s s' p loaded result, Analyzes w m args s p loaded result →
      Analyzes w m args' s' p loaded result →
      reportOf w s p result = reportOf w s' p result ∧
      ∀ report, reportOf w s p result = .ok report →
        ∃ text, text = written report ∧
          Delivers (run w m args) s text ∧ Delivers (run w m args') s' text ∧
          printed text = String.ofList (Text.plain text.toList) ∧
          (Text.escape ∉ text.toList ∨ p.format = .sarif → printed text = text) := by
  refine ⟨status_of_variant h, ?_, ?_⟩
  · intro p loaded result
    constructor
    · rintro ⟨s, hanalyzes⟩
      obtain ⟨s', hanalyzes', -⟩ := analyzes_of_agree h.agree hanalyzes
      exact ⟨s', hanalyzes'⟩
    · rintro ⟨s', hanalyzes'⟩
      obtain ⟨s, hanalyzes, -⟩ := analyzes_of_agree h.agree.symm hanalyzes'
      exact ⟨s, hanalyzes⟩
  · intro s s' p loaded result hanalyzes hanalyzes'
    have hsame := h.reportOf_eq hanalyzes hanalyzes'
    refine ⟨hsame, fun report hreport => ?_⟩
    have hdelivers := delivers_of_analyzes hanalyzes hreport fun path hdest =>
      (fits_of_agree h.agree hanalyzes.settles.request).2 path hdest _
    have hdelivers' := delivers_of_analyzes hanalyzes' (hsame ▸ hreport) fun path hdest =>
      (fits_of_agree h.agree.symm hanalyzes'.settles.request).2 path hdest _
    refine ⟨_, rfl, hdelivers, hdelivers', rfl, ?_⟩
    rintro (hplain | hformat)
    · exact printed_of_no_escape hplain
    · exact printed_of_no_escape (escape_not_mem_sarif hformat hreport)

/-- Two command lines that are verbose alike have settings that are. -/
theorem loudness_of_parse {p p' : Parsed} (h : parse args = .ok p) (h' : parse args' = .ok p')
    (hloud : (valuesOf .verbose p.given).isEmpty = (valuesOf .verbose p'.given).isEmpty)
    (hs : request w args = .ok (.run s)) (hs' : request w args' = .ok (.run s')) :
    s.verbose = s'.verbose := by
  obtain ⟨q, hq, -, -, hasks⟩ := request_eq_run_iff.mp hs
  obtain ⟨q', hq', -, -, hasks'⟩ := request_eq_run_iff.mp hs'
  have hsame : p = q := Except.ok.inj (h.symm.trans hq)
  have hsame' : p' = q' := Except.ok.inj (h'.symm.trans hq')
  rw [verbose_of_asks (hasks .verbose), verbose_of_asks (hasks' .verbose), ← hsame, ← hsame', hloud]

/-- A source, and nothing else. -/
def oneSource : Workspace := ⟨.dir [("m.py", .file ⟨[]⟩)], [], [], .bare⟩

/-- A module that is not there, with a control sequence in its path: the command line alone, and one
with everything that has no say in the report.  They are variants; the report is printed by the one
and saved by the other, and the control sequence is in the file only. -/
theorem report_of_variants_of_styled_path :
    (run oneSource default ["--analyzers", "\x1b[31mgone.py", "--target", "m.py"]).status =
      (run oneSource default ["--analyzers", "\x1b[31mgone.py", "--target", "m.py", "--quiet",
        "--jobs", "4", "--output", "r.txt"]).status ∧
    (run oneSource default ["--analyzers", "\x1b[31mgone.py", "--target", "m.py"]).stdout =
      "Error: Analyzer module not found: gone.py\n" ∧
    ((run oneSource default ["--analyzers", "\x1b[31mgone.py", "--target", "m.py", "--quiet",
        "--jobs", "4", "--output", "r.txt"]).workspace.openFile
          (Path.ofString "r.txt")).toOption.map (·.bytes) =
      some (Text.Utf8.encode "Error: Analyzer module not found: \x1b[31mgone.py\n".toList) := by
  have hplain : parse ["--analyzers", "\x1b[31mgone.py", "--target", "m.py"] =
      .ok ⟨[⟨.analyzers, "\x1b[31mgone.py"⟩, ⟨.target, "m.py"⟩], []⟩ := by
    decide +kernel
  have hall : parse ["--analyzers", "\x1b[31mgone.py", "--target", "m.py", "--quiet", "--jobs", "4",
      "--output", "r.txt"] =
        .ok ⟨[⟨.analyzers, "\x1b[31mgone.py"⟩, ⟨.target, "m.py"⟩, ⟨.quiet, ""⟩, ⟨.jobs, "4"⟩,
          ⟨.output, "r.txt"⟩], []⟩ := by
    decide +kernel
  have hagree : Agree oneSource ["--analyzers", "\x1b[31mgone.py", "--target", "m.py"]
      ["--analyzers", "\x1b[31mgone.py", "--target", "m.py", "--quiet", "--jobs", "4", "--output",
        "r.txt"] := by
    refine .told hplain hall rfl rfl ⟨fun _ => rfl, ?_, ?_⟩ ⟨fun _ => rfl, ?_, ?_⟩
    · intro text htext
      cases htext
    · intro path hpath
      cases hpath
    · intro text htext
      obtain rfl : "4" = text := Option.some.inj htext
      exact ⟨4, rfl⟩
    · intro path hpath _
      obtain rfl : "r.txt" = path := Option.some.inj hpath
      exact ⟨_, rfl⟩
  have hvariant := Variant.mk hagree fun s s' p hs hs' =>
    Or.inl (loudness_of_parse hplain hall rfl hs.request hs'.request)
  refine ⟨(report_of_variants (m := default) hvariant).1, ?_, ?_⟩
  · decide +kernel
  · decide +kernel

end LintHost.Command
