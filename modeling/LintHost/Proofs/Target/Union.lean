/-
A solution is the union of its projects.

Resolving a solution gives what resolving its projects gives, one project after the other and each
unit at its first place, and leaves the notes of all of these behind its own.  For that a project
has to be resolved on its own as it is resolved for the solution.  It is: a listed project is a path
in its normal form, and was looked at under that, so its spelling leads to the same descriptor again
and its sources are listed from the same directory.  Only its name can stand in the way, as one that
is also the name of a solution is resolved as a solution.

The units of a solution have been looked at too, under the paths that are handed on.  So each of
them can be read, and the project around it can be looked for, `exists_context`; and a run over the
solution is a meeting of every entry point with every unit, once each.
-/
import LintHost.Proofs.Engine.Accounting
import LintHost.Proofs.Target.Malformed
import LintHost.Proofs.Target.Units

namespace LintHost.Target

open Outcome

variable {w : Workspace} {c : TargetsConfig} {target : String} {p u : Path} {units : List Path}

/-! ### Projects as targets -/

/-- Is a project file under its one absolute spelling, and no solution by its name. -/
structure IsPlainProject (w : Workspace) (c : TargetsConfig) (p : Path) : Prop where
  normal : p.Normal
  file : w.isFile p = .ok true
  project : isProject c p = true
  plain : isSolution c p = false

theorem normal_of_mem_projectsIn (hw : w.Sound) (hp : ∀ n ∈ p.names, Path.IsName n) {q : Path}
    (hq : q ∈ projectsIn w c p) : q.Normal :=
  normal_of_mem_listing hw hp (List.mem_filter.mp ((mem_dedupe _ _).mp hq)).1

namespace IsPlainProject

theorem isFile_spelled (h : IsPlainProject w c p) :
    w.isFile (Path.ofString p.toString) = .ok true := by
  rw [h.normal.ofString_toString]
  exact h.file

/-- A project is resolved on its own as it is for a solution. -/
theorem resolve_eq (h : IsPlainProject w c p) :
    resolve w c p.toString = projectSources w c p := by
  rw [resolve_of_isFile h.isFile_spelled, h.normal.ofString_toString,
    if_neg (by simp [h.plain]), if_pos h.project]

/-- A project refers to itself. -/
theorem projectFiles_eq (h : IsPlainProject w c p) : projectFiles w c p.toString = pure [p] := by
  rw [projectFiles_of_isFile h.isFile_spelled, h.normal.ofString_toString,
    if_neg (by simp [h.plain]), if_pos h.project, Workspace.normalize, h.normal.normalize_eq]

end IsPlainProject

/-! ### The solution's own notes -/

theorem level_of_skippedProject? {q : Path} {e : Event} (h : skippedProject? w c p q = some e) :
    e.level = .warning := by
  unfold skippedProject? at h
  split_ifs at h <;> (rw [← Option.some.inj h]; rfl)

theorem level_of_mem_solutionNotes {e : Event} (h : e ∈ solutionNotes w c p) :
    e.level = .warning := by
  rcases List.mem_append.mp h with hwarning | hskipped
  · exact level_of_isAboutDescriptor (isAboutDescriptor_of_warning? (Option.mem_toList.mp hwarning))
  · obtain ⟨q, -, hq⟩ := List.mem_filterMap.mp hskipped
    exact level_of_skippedProject? hq

/-! ### Units as entry points meet them -/

/-- A unit that has been looked at can be read, and its project can be looked for. -/
theorem exists_context (hw : w.Sound) (hu : u.Normal) (hfile : w.isFile u = .ok true) :
    ∃ x : Context, x.path = u.toString ∧ Engine.Readies w c u.toString (.ok x) := by
  have hspelled : Path.ofString u.toString = u := hu.ofString_toString
  obtain ⟨hspell, there, f, hloc⟩ := Workspace.isFile_eq_true_iff.mp hfile
  obtain ⟨file, hopen⟩ := Workspace.openFile_of_isFile hfile
  rcases Engine.readies_or_strands w c u.toString with ⟨o, ho⟩ | ⟨e, he⟩
  · cases ho with
    | unreadable hfails =>
      rw [hspelled, hopen] at hfails
      cases hfails
    | readable hreads hproject => exact ⟨_, rfl, .readable hreads hproject⟩
  · have hcwd : ∀ n ∈ w.cwd, Spellable n := fun n hn => (hw.cwd_names n hn).spellable
    rw [Engine.strands_iff hcwd, hspelled, Workspace.pathFault?_eq_none_iff.mpr hspell,
      Workspace.normalize, hu.normalize_eq, hloc] at he
    rcases he with hfault | ⟨-, hlong, -⟩
    · cases hfault
    · cases hlong

theorem exists_contexts (hw : w.Sound) (h : ∀ u ∈ units, u.Normal ∧ w.isFile u = .ok true) :
    ∃ xs : List Context, xs.map Context.path = units.map Path.toString ∧
      (Engine.prepareAll w c (units.map Path.toString)).outcome =
        .ok (xs.map fun x => (x.path, .ok x)) := by
  simp only [Engine.prepareAll_eq_ok_iff]
  induction units with
  | nil => exact ⟨[], rfl, .nil⟩
  | cons u rest ih =>
    obtain ⟨hnormal, hfile⟩ := h u (by simp)
    obtain ⟨x, hx, hreadies⟩ := exists_context (c := c) hw hnormal hfile
    obtain ⟨xs, hxs, hall⟩ := ih fun v hv => h v (by simp [hv])
    refine ⟨x :: xs, ?_, .cons ⟨hx, hreadies⟩ hall⟩
    rw [List.map_cons, List.map_cons, hx, hxs]

/-- A run over units that have been looked at settles their meetings with the entry points, each of
them once. -/
theorem run_of_contexts {xs : List Context} {us : List String}
    (h : (Engine.prepareAll w c us).outcome = .ok (xs.map fun x => (x.path, .ok x))) {jobs : Int}
    (hjobs : 1 ≤ jobs) (entries : List EntryPoint) (errors : List String) :
    (Engine.run w c jobs us entries errors).outcome = Engine.resultOf errors <$>
      (Engine.slots entries (xs.map fun x => (x.path, .ok x))).mapM Engine.settle := by
  rw [Engine.run_outcome w c hjobs]
  by_cases hnil : entries = []
  · subst hnil
    rfl
  · rw [Engine.preparation_of_ne_nil hnil, h]
    rfl

/-! ### Solutions -/

/-- **A solution is the union of its projects.**  It refers to projects that are there, each once
and each referring to itself alone; its units are those of the projects in turn without repetitions;
its notes are its own warnings and then those of the projects; and a run over it lets every entry
point meet each of its units once. -/
theorem resolve_solution_union (hw : w.Sound)
    (hfile : w.isFile (Path.ofString target) = .ok true)
    (hsolution : isSolution c (Path.ofString target) = true)
    (hplain : ∀ ps, (projectFiles w c target).outcome = .ok ps →
      ∀ p ∈ ps, isSolution c p = false)
    (h : (resolve w c target).outcome = .ok units) :
    ∃ (projects : List Path) (sources : Path → List Path),
      (projectFiles w c target).outcome = .ok projects ∧
      (projects.map Path.toString).Nodup ∧
      (∀ p ∈ projects, w.isFile p = .ok true ∧ isProject c p = true ∧
        projectFiles w c p.toString = pure [p] ∧
        (resolve w c p.toString).outcome = .ok (sources p)) ∧
      units = dedupe (projects.flatMap sources) ∧
      (∀ e ∈ (projectFiles w c target).events, e.level = .warning) ∧
      (resolve w c target).events = (projectFiles w c target).events ++
        projects.flatMap (fun p => (resolve w c p.toString).events) ∧
      (units.map Path.toString).Nodup ∧
      ∃ contexts : List Context, contexts.map Context.path = units.map Path.toString ∧
        ∀ jobs, 1 ≤ jobs → ∀ entries errors,
          (Engine.runTarget w c jobs target entries errors).outcome =
            Engine.resultOf errors <$> (Engine.slots entries
              (contexts.map fun x => (x.path, .ok x))).mapM Engine.settle := by
  have hp : ∀ n ∈ (Path.ofString target).names, Path.IsName n :=
    fun n hn => Path.isName_of_mem_ofString hn
  have hresolve : resolve w c target = solutionSources w c (Path.ofString target) := by
    rw [resolve_of_isFile hfile, if_pos hsolution]
  have hrefers : projectFiles w c target = solutionProjects w c (Path.ofString target) := by
    rw [projectFiles_of_isFile hfile, if_pos hsolution]
  have hunits := h
  rw [hresolve] at hunits
  obtain ⟨hpasses, hgiven⟩ := solutionSources_eq_ok_iff.mp hunits
  have hprojects :
      (projectFiles w c target).outcome = .ok (projectsIn w c (Path.ofString target)) := by
    rw [hrefers]
    exact solutionProjects_eq_ok_iff.mpr ⟨hpasses.solution, rfl⟩
  have hown : (projectFiles w c target).events = solutionNotes w c (Path.ofString target) := by
    rw [hrefers, solutionProjects_events hpasses.solution]
  have hnormal : ∀ q ∈ projectsIn w c (Path.ofString target), q.Normal :=
    fun q hq => normal_of_mem_projectsIn hw hp hq
  have hproject : ∀ q ∈ projectsIn w c (Path.ofString target), IsPlainProject w c q := fun q hq =>
    have ⟨hthere, hname⟩ := isFile_of_mem_projectsIn hq
    ⟨hnormal q hq, hthere, hname, hplain _ hprojects q hq⟩
  have hall := areUnits_of_resolve hw h
  have hlooked : ∀ u ∈ units, u.Normal ∧ w.isFile u = .ok true := by
    intro u hu
    refine ⟨(hall.isUnit u hu).normal, ?_⟩
    rw [hgiven] at hu
    obtain ⟨q, -, hu⟩ := List.mem_flatMap.mp ((mem_dedupe _ _).mp hu)
    exact isFile_of_mem_sourcesIn hu
  obtain ⟨contexts, hcontexts, hprepared⟩ := exists_contexts (c := c) hw hlooked
  refine ⟨projectsIn w c (Path.ofString target), sourcesIn w c, hprojects, ?_, ?_, hgiven, ?_, ?_,
    ?_, contexts, hcontexts, ?_⟩
  · exact Path.nodup_map_toString hnormal (nodup_dedupe _)
  · intro q hq
    have hone := hproject q hq
    refine ⟨hone.file, hone.project, hone.projectFiles_eq, ?_⟩
    rw [hone.resolve_eq]
    exact projectSources_eq_ok_iff.mpr ⟨hpasses.projects q hq, rfl⟩
  · intro e he
    rw [hown] at he
    exact level_of_mem_solutionNotes he
  · rw [hresolve, solutionSources_events hpasses, hown]
    have hnotes : ∀ q ∈ projectsIn w c (Path.ofString target),
        projectNotes w c q = (resolve w c q.toString).events := by
      intro q hq
      rw [(hproject q hq).resolve_eq, projectSources_events (hpasses.projects q hq)]
    rw [List.flatMap_congr hnotes]
  · exact Path.nodup_map_toString (fun u hu => (hlooked u hu).1) hall.nodup
  · intro jobs hjobs entries errors
    rw [Engine.runTarget_outcome, h]
    exact run_of_contexts hprepared hjobs entries errors

/-- Two projects that share a source, one of them listed twice, and one that is gone. -/
theorem resolve_solution_union_of_shared :
    let w : Workspace := ⟨.dir [
      ("s.lksln", .file
        ⟨"projects: [a.lkproj, gone.lkproj, b.lkproj, ./a.lkproj]".toUTF8.toList⟩),
      ("a.lkproj", .file ⟨"sources: [m.py, n.py]".toUTF8.toList⟩),
      ("b.lkproj", .file ⟨"sources: [n.py, s.lksln, o.py]".toUTF8.toList⟩),
      ("m.py", .file ⟨[]⟩), ("n.py", .file ⟨[]⟩), ("o.py", .file ⟨[]⟩)], [], [], .bare⟩
    let units : List Path := [⟨.slash, ["m.py"]⟩, ⟨.slash, ["n.py"]⟩, ⟨.slash, ["o.py"]⟩]
    (resolve w {} "s.lksln").outcome = .ok units ∧
      (resolve w {} "s.lksln").events = (projectFiles w {} "s.lksln").events ++
        ((resolve w {} "/a.lkproj").events ++ (resolve w {} "/b.lkproj").events) ∧
      ∃ contexts : List Context, contexts.map Context.path = ["/m.py", "/n.py", "/o.py"] ∧
        ∀ entries errors, (Engine.runTarget w {} 2 "s.lksln" entries errors).outcome =
          Engine.resultOf errors <$> (Engine.slots entries
            (contexts.map fun x => (x.path, .ok x))).mapM Engine.settle := by
  intro w units
  have hnames : FileName "s.lksln" ∧ FileName "a.lkproj" ∧ FileName "b.lkproj" ∧
      FileName "m.py" ∧ FileName "n.py" ∧ FileName "o.py" := by decide +kernel
  obtain ⟨hs, ha, hb, hm, hn, ho⟩ := hnames
  have hsound : w.Sound :=
    ⟨⟨hs, trivial, ha, trivial, hb, trivial, hm, trivial, hn, trivial, ho, trivial, trivial⟩,
      _, rfl⟩
  have hunits : (resolve w {} "s.lksln").outcome = .ok units := by decide +kernel
  have hprojects : (projectFiles w {} "s.lksln").outcome =
      .ok [⟨.slash, ["a.lkproj"]⟩, ⟨.slash, ["b.lkproj"]⟩] := by decide +kernel
  have hplain : ∀ ps, (projectFiles w {} "s.lksln").outcome = .ok ps →
      ∀ p ∈ ps, isSolution {} p = false := by
    intro ps hps
    rw [hprojects] at hps
    rw [← Except.ok.inj hps]
    decide +kernel
  obtain ⟨projects, sources, hrefers, -, -, -, -, hevents, -, contexts, hcontexts, hruns⟩ :=
    resolve_solution_union hsound (by decide +kernel) (by decide +kernel) hplain hunits
  obtain rfl := Except.ok.inj (hrefers.symm.trans hprojects)
  have ha : (⟨.slash, ["a.lkproj"]⟩ : Path).toString = "/a.lkproj" := by decide +kernel
  have hb : (⟨.slash, ["b.lkproj"]⟩ : Path).toString = "/b.lkproj" := by decide +kernel
  have hspelled : units.map Path.toString = ["/m.py", "/n.py", "/o.py"] := by decide +kernel
  rw [List.flatMap_cons, List.flatMap_cons, List.flatMap_nil, List.append_nil, ha, hb] at hevents
  exact ⟨hunits, hevents, contexts, hcontexts.trans hspelled,
    fun entries errors => hruns 2 (by decide) entries errors⟩

end LintHost.Target
