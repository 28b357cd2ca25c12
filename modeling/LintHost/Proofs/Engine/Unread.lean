/-
Units that cannot be read.

What comes of an entry point at a unit depends on the two and on nothing else, `outcomeAt`: not on
the other units, and not on the other entry points.  So a result is read off the meetings one by
one, `run_eq_resultOf`, and a unit more is as many slots more, in their places.

A unit that cannot be opened gives every entry point an error and none of them a finding.  A run
with such a unit has a result where the run without it has one, with the same findings, and with one
error more for each entry point: `run_around_unread`.  That is so for what the file system says
about a unit.  A unit whose text is no path at all ends the run for every unit, `run_of_nul`, and so
does an entry point that raises at a unit what cannot be told.  A half of a character is in such a
text by its stand-in, so that the characters that serve as stand-ins are not spoken of.
-/
import LintHost.Proofs.Engine.Accounting

namespace LintHost.Engine

variable {w : Workspace} {c : TargetsConfig} {jobs : Int} {entries : List EntryPoint}
  {units : List String} {errors : List String} {entry : EntryPoint} {unit : String}
  {r : AnalysisResult}

/-! ### One meeting -/

theorem toOption_eq_some_iff {ε α : Type} {x : Except ε α} {a : α} :
    x.toOption = some a ↔ x = .ok a := by
  cases x <;> simp [Except.toOption]

/-- What comes of an entry point at a unit, where anything does. -/
def outcomeAt (w : Workspace) (c : TargetsConfig) (entry : EntryPoint) (unit : String) :
    Option SlotOutcome :=
  ((prepare w c unit).outcome >>= fun p => settle (entry, unit, p)).toOption

theorem outcomeAt_eq_some_iff {o : SlotOutcome} :
    outcomeAt w c entry unit = some o ↔ ∃ p, Readies w c unit p ∧ Settles entry unit p o := by
  unfold outcomeAt
  rw [toOption_eq_some_iff, Outcome.bind_eq_ok_iff]
  simp only [prepare_eq_ok_iff, settle_eq_ok_iff]

/-- A unit that cannot be opened fails for every entry point. -/
theorem outcomeAt_of_unread {f : OsFailure}
    (h : w.openFile (Path.ofString unit) = .error (.os f)) (entry : EntryPoint) :
    outcomeAt w c entry unit = some (.error (slotError entry.name unit f.cause.kind f.message)) :=
  outcomeAt_eq_some_iff.mpr ⟨_, .unreadable h, .unreadable f⟩

/-! ### All meetings -/

theorem eq_filterMap_of_forall₂ {α β : Type} {f : α → Option β} {xs : List α} {ys : List β}
    (h : List.Forall₂ (fun x y => f x = some y) xs ys) : ys = xs.filterMap f := by
  induction h with
  | nil => rfl
  | cons hxy _ ih => rw [List.filterMap_cons_some hxy, ← ih]

/-- **A result is what comes of the meetings, one by one.** -/
theorem run_eq_resultOf (hjobs : 1 ≤ jobs)
    (h : (run w c jobs units entries errors).outcome = .ok r) :
    r = resultOf errors (entries.flatMap fun e => units.filterMap (outcomeAt w c e)) := by
  obtain ⟨os, hos, rfl⟩ := (run_eq_ok_iff hjobs).mp h
  have hmeetings : os = (meetings entries units).filterMap fun m => outcomeAt w c m.1 m.2 :=
    eq_filterMap_of_forall₂ (hos.imp fun m o hm => outcomeAt_eq_some_iff.mpr hm)
  have hrows : (meetings entries units).filterMap (fun m => outcomeAt w c m.1 m.2) =
      entries.flatMap fun e => units.filterMap (outcomeAt w c e) := by
    rw [meetings, List.filterMap_flatMap]
    simp only [List.filterMap_map]
    rfl
  rw [hmeetings, hrows]

/-- There is a result if no unit strands the run and nothing goes through an entry point. -/
theorem exists_result_iff_of_units (hjobs : 1 ≤ jobs) :
    (∃ r, (run w c jobs units entries errors).outcome = .ok r) ↔
      entries = [] ∨ ∀ unit ∈ units, (∀ e, ¬Strands w c unit e) ∧
        ∀ entry ∈ entries, ∀ p escape, Readies w c unit p → ¬Escapes entry p escape := by
  rw [exists_result_iff hjobs]
  constructor
  · intro h
    by_cases hnil : entries = []
    · exact Or.inl hnil
    · obtain ⟨entry, hentry⟩ := List.exists_mem_of_ne_nil entries hnil
      exact Or.inr fun unit hunit =>
        ⟨(h entry hentry unit hunit).1, fun entry hentry => (h entry hentry unit hunit).2⟩
  · rintro (rfl | h) entry hentry unit hunit
    · cases hentry
    · exact ⟨(h unit hunit).1, (h unit hunit).2 entry hentry⟩

/-- Nothing goes through an entry point at a unit that cannot be opened. -/
theorem not_escapes_of_unread {f : OsFailure}
    (h : w.openFile (Path.ofString unit) = .error (.os f)) {p : Prepared} {escape : Escape}
    (hp : Readies w c unit p) : ¬Escapes entry p escape := by
  rw [hp.unique (.unreadable h)]
  nofun

/-- Only a text that is no path strands a run, and a unit that can be read and lies too deep. -/
theorem not_strands_iff (hcwd : ∀ n ∈ w.cwd, Spellable n) :
    (∀ e, ¬Strands w c unit e) ↔
      Spellable (Path.ofString unit).toString ∧
      ((∃ file, w.openFile (Path.ofString unit) = .ok file) →
        w.locate (w.normalize (Path.ofString unit)) ≠ .error .nameTooLong) := by
  simp only [strands_iff hcwd, ← Workspace.pathFault?_eq_none_iff]
  constructor
  · intro h
    refine ⟨Option.eq_none_iff_forall_ne_some.mpr fun e he => h e (Or.inl he), ?_⟩
    exact fun hopen hlong => h _ (Or.inr ⟨hopen, hlong, rfl⟩)
  · rintro ⟨hnone, hdeep⟩ e (he | ⟨hopen, hlong, -⟩)
    · rw [hnone] at he
      cases he
    · exact hdeep hopen hlong

/-! ### One unit more -/

/-- What comes of a row of meetings gives the findings and the errors of the result row by row. -/
theorem diagnostics_of_run (hjobs : 1 ≤ jobs)
    (h : (run w c jobs units entries errors).outcome = .ok r) :
    r.diagnostics =
      entries.flatMap fun e => (units.filterMap (outcomeAt w c e)).flatMap SlotOutcome.found := by
  rw [run_eq_resultOf hjobs h, resultOf, List.flatMap_assoc]

theorem errors_of_run (hjobs : 1 ≤ jobs)
    (h : (run w c jobs units entries errors).outcome = .ok r) :
    r.errors = errors ++
      entries.flatMap fun e =>
        (units.filterMap (outcomeAt w c e)).filterMap SlotOutcome.error? := by
  rw [run_eq_resultOf hjobs h, resultOf, List.filterMap_flatMap]

/-- What comes of an entry point at units with one more among them that it fails at. -/
theorem filterMap_outcomeAt_insert {before after : List String} {bad why : String}
    (h : outcomeAt w c entry bad = some (.error why)) :
    (before ++ bad :: after).filterMap (outcomeAt w c entry) =
      before.filterMap (outcomeAt w c entry) ++
        .error why :: after.filterMap (outcomeAt w c entry) := by
  rw [List.filterMap_append, List.filterMap_cons_some h]

/-- **A unit that cannot be read costs a run an error for each entry point, and nothing else.**  A
run has a result if the texts of its units are paths, none that can be read lies too deep, and
nothing goes through an entry point at any of them.  With a unit among them that cannot be opened it
has one if it has one without that unit; the findings are the same, and each entry point has one
error more, in the place of the unit. -/
theorem run_around_unread (hjobs : 1 ≤ jobs) (hcwd : ∀ n ∈ w.cwd, Spellable n)
    (errors : List String) :
    (∀ units, (∃ r, (run w c jobs units entries errors).outcome = .ok r) ↔
      entries = [] ∨ ∀ unit ∈ units, Spellable (Path.ofString unit).toString ∧
        ((∃ file, w.openFile (Path.ofString unit) = .ok file) →
          w.locate (w.normalize (Path.ofString unit)) ≠ .error .nameTooLong) ∧
        ∀ entry ∈ entries, ∀ p escape, Readies w c unit p → ¬Escapes entry p escape) ∧
    ∀ before bad after f, w.openFile (Path.ofString bad) = .error (.os f) →
      ((∃ r, (run w c jobs (before ++ bad :: after) entries errors).outcome = .ok r) ↔
        ∃ r, (run w c jobs (before ++ after) entries errors).outcome = .ok r) ∧
      ∀ r without, (run w c jobs (before ++ bad :: after) entries errors).outcome = .ok r →
        (run w c jobs (before ++ after) entries errors).outcome = .ok without →
        r.diagnostics = without.diagnostics ∧
        ∃ front back : EntryPoint → List String,
          without.errors = errors ++ entries.flatMap (fun e => front e ++ back e) ∧
          r.errors = errors ++ entries.flatMap fun e =>
            front e ++ slotError e.name bad f.cause.kind f.message :: back e := by
  refine ⟨fun units => ?_,
    fun before bad after f hbad => ⟨?_, fun r without hr hwithout => ⟨?_, ?_⟩⟩⟩
  · rw [exists_result_iff_of_units hjobs]
    simp only [not_strands_iff hcwd, and_assoc]
  · rw [exists_result_iff_of_units hjobs, exists_result_iff_of_units hjobs]
    have hstays : ∀ e, ¬Strands w c bad e := (Readies.unreadable hbad).not_strands
    have hnone : ∀ entry ∈ entries, ∀ p escape, Readies w c bad p → ¬Escapes entry p escape :=
      fun _ _ _ _ hp => not_escapes_of_unread hbad hp
    simp only [List.forall_mem_append, List.forall_mem_cons]
    rw [and_iff_right (And.intro hstays hnone)]
  · rw [diagnostics_of_run hjobs hr, diagnostics_of_run hjobs hwithout]
    congr 1
    funext e
    rw [filterMap_outcomeAt_insert (outcomeAt_of_unread hbad e), List.filterMap_append,
      List.flatMap_append, List.flatMap_append, List.flatMap_cons]
    rfl
  · refine ⟨fun e => (before.filterMap (outcomeAt w c e)).filterMap SlotOutcome.error?,
      fun e => (after.filterMap (outcomeAt w c e)).filterMap SlotOutcome.error?, ?_, ?_⟩
    · rw [errors_of_run hjobs hwithout]
      simp only [List.filterMap_append]
    · rw [errors_of_run hjobs hr]
      congr 2
      funext e
      rw [filterMap_outcomeAt_insert (outcomeAt_of_unread hbad e), List.filterMap_append]
      rfl

/-- Finds something in every unit. -/
def finder : EntryPoint :=
  ⟨"one", fun c => .now (.items [.item (.finding ⟨"R", .error, c.path, "", none, []⟩)])⟩

/-- A unit that is gone, between two that are read. -/
theorem run_around_unread_of_gone :
    let w : Workspace := ⟨.dir [("a.py", .file ⟨[]⟩), ("b.py", .file ⟨[]⟩)], [], [], .bare⟩
    let found : List Diagnostic :=
      [⟨"R", .error, "a.py", "one", none, []⟩, ⟨"R", .error, "b.py", "one", none, []⟩]
    (run w {} 2 ["a.py", "b.py"] [finder] ["seed"]).outcome = .ok ⟨found, ["seed"]⟩ ∧
      ∃ r, (run w {} 2 ["a.py", "gone.py", "b.py"] [finder] ["seed"]).outcome = .ok r ∧
        r.diagnostics = found ∧ ∃ front back : EntryPoint → List String,
          ["seed"] = ["seed"] ++ [finder].flatMap (fun e => front e ++ back e) ∧
          r.errors = ["seed"] ++ [finder].flatMap fun e => front e ++
            slotError e.name "gone.py" "FileNotFoundError"
              "[Errno 2] No such file or directory: 'gone.py'" :: back e := by
  intro w found
  have hwithout :
      (run w {} 2 ["a.py", "b.py"] [finder] ["seed"]).outcome = .ok ⟨found, ["seed"]⟩ := by
    decide +kernel
  have hgone : w.openFile (Path.ofString "gone.py") = .error (.os ⟨.missing, "gone.py"⟩) := rfl
  obtain ⟨-, hbad⟩ := @run_around_unread w {} 2 [finder] (by decide)
    (fun n hn => absurd hn List.not_mem_nil) ["seed"]
  obtain ⟨hreturns, hsame⟩ := hbad ["a.py"] "gone.py" ["b.py"] _ hgone
  obtain ⟨r, hr⟩ := hreturns.mpr ⟨_, hwithout⟩
  obtain ⟨hfound, hone⟩ := hsame r _ hr hwithout
  exact ⟨hwithout, r, hr, hfound, hone⟩

/-- A unit whose text is no path ends the run, also for a unit that can be read. -/
theorem run_of_nul :
    (run ⟨.dir [("m.py", .file ⟨[]⟩)], [], [], .bare⟩ {} 1 ["m.py", "a\x00.py"]
      [⟨"e", fun _ => .now .nothing⟩] []).outcome = .error .nulInPath := by
  decide +kernel

end LintHost.Engine
