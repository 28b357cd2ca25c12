/-
What a run accounts for.

A run has a result exactly when every meeting of an entry point and a unit comes to an end of its
own, and then the result is what came of the meetings, in their order: `run_eq_ok_iff`.  Nothing is
lost on the way, nothing is there twice, and one meeting does not show in what comes of another.
`run_accounts` adds what is left: a run without a result.

There are two ways to that.  What an entry point raises goes through: an interrupt, as it should, or
an exception that cannot be told.  Or a unit strands the run before any entry point meets it.
`Strands` says which units do: those whose path cannot be spelled, and those that can be read but
lie so deep that their absolute path, from which the project around them is looked for, is too long
to be followed.  A unit that merely cannot be read does not strand the run; it fails for every entry
point.
-/
import LintHost.Proofs.Engine.Settling
import LintHost.Proofs.Engine.Preparing

namespace LintHost.Engine

/-- The meetings of entry points and units, entry points first. -/
def meetings (entries : List EntryPoint) (units : List String) : List (EntryPoint × String) :=
  entries.flatMap fun e => units.map fun u => (e, u)

variable {w : Workspace} {c : TargetsConfig}

/-! ### Meetings -/

theorem mem_meetings {entries : List EntryPoint} {units : List String} {entry : EntryPoint}
    {unit : String} : (entry, unit) ∈ meetings entries units ↔ entry ∈ entries ∧ unit ∈ units := by
  unfold meetings
  simp only [List.mem_flatMap, List.mem_map, Prod.mk.injEq]
  constructor
  · rintro ⟨e, he, u, hu, rfl, rfl⟩
    exact ⟨he, hu⟩
  · rintro ⟨he, hu⟩
    exact ⟨entry, he, unit, hu, rfl, rfl⟩

/-- Each meeting has its slot, in the same place. -/
theorem forall₂_meetings_slots {units : List String} {ps : List (String × Prepared)}
    (h : List.Forall₂ (fun u q => q.1 = u ∧ Readies w c u q.2) units ps)
    (entries : List EntryPoint) :
    List.Forall₂ (fun m s => s.1 = m.1 ∧ s.2.1 = m.2 ∧ Readies w c m.2 s.2.2)
      (meetings entries units) (slots entries ps) := by
  induction entries with
  | nil => exact .nil
  | cons entry rest ih =>
    have hrow : List.Forall₂ (fun m s => s.1 = m.1 ∧ s.2.1 = m.2 ∧ Readies w c m.2 s.2.2)
        (units.map fun u => (entry, u)) (ps.map fun q => (entry, q)) := by
      rw [List.forall₂_map_left_iff, List.forall₂_map_right_iff]
      exact h.imp fun u q hq => ⟨rfl, hq.1, hq.2⟩
    exact List.rel_append hrow ih

theorem slots_append (es more : List EntryPoint) (ps : List (String × Prepared)) :
    slots (es ++ more) ps = slots es ps ++ slots more ps :=
  List.flatMap_append

/-! ### Whole runs -/

theorem preparation_of_ne_nil {entries : List EntryPoint} (h : entries ≠ []) (units : List String) :
    preparation w c units entries = prepareAll w c units := by
  rw [preparation, if_neg]
  rw [List.isEmpty_iff]
  exact h

/-- Each meeting comes to an end of its own, in the order of the meetings. -/
def Accounts (w : Workspace) (c : TargetsConfig) (entries : List EntryPoint) (units : List String)
    (os : List SlotOutcome) : Prop :=
  List.Forall₂ (fun m o => ∃ p, Readies w c m.2 p ∧ Settles m.1 m.2 p o) (meetings entries units) os

theorem Accounts.of_mem {entries : List EntryPoint} {units : List String} {os : List SlotOutcome}
    (h : Accounts w c entries units os) {entry : EntryPoint} {unit : String}
    (hentry : entry ∈ entries) (hunit : unit ∈ units) :
    ∃ o p, Readies w c unit p ∧ Settles entry unit p o := by
  obtain ⟨o, -, p, hp, ho⟩ := Outcome.forall₂_left_mem h (mem_meetings.mpr ⟨hentry, hunit⟩)
  exact ⟨o, p, hp, ho⟩

theorem accounts_of_slots {entries : List EntryPoint} {units : List String}
    {ps : List (String × Prepared)} {os : List SlotOutcome}
    (hps : List.Forall₂ (fun u q => q.1 = u ∧ Readies w c u q.2) units ps)
    (hos : (slots entries ps).mapM settle = .ok os) : Accounts w c entries units os := by
  refine Outcome.forall₂_comp ?_ (forall₂_meetings_slots hps entries)
    (Outcome.mapM_eq_ok_iff.mp hos)
  rintro ⟨entry, unit⟩ ⟨entry', unit', p⟩ o ⟨hentry, hunit, hp⟩ ho
  obtain rfl : entry' = entry := hentry
  obtain rfl : unit' = unit := hunit
  exact ⟨p, hp, settle_eq_ok_iff.mp ho⟩

theorem Accounts.slots {entries : List EntryPoint} {units : List String}
    {ps : List (String × Prepared)} {os : List SlotOutcome} (h : Accounts w c entries units os)
    (hps : List.Forall₂ (fun u q => q.1 = u ∧ Readies w c u q.2) units ps) :
    (Engine.slots entries ps).mapM settle = .ok os := by
  refine Outcome.mapM_eq_ok_iff.mpr
    (Outcome.forall₂_comp ?_ (forall₂_meetings_slots hps entries).flip h)
  rintro ⟨entry', unit', p⟩ ⟨entry, unit⟩ o ⟨hentry, hunit, hp⟩ ⟨p', hp', ho⟩
  obtain rfl : entry' = entry := hentry
  obtain rfl : unit' = unit := hunit
  obtain rfl : p = p' := hp.unique hp'
  exact settle_eq_ok_iff.mpr ho

/-- **A run has a result exactly when every meeting comes to an end of its own, and then the result
is what came of the meetings, in their order.** -/
theorem run_eq_ok_iff {jobs : Int} (hjobs : 1 ≤ jobs) {units : List String}
    {entries : List EntryPoint} {errors : List String} {r : AnalysisResult} :
    (run w c jobs units entries errors).outcome = .ok r ↔
      ∃ os, Accounts w c entries units os ∧ r = resultOf errors os := by
  rw [run_outcome w c hjobs, Outcome.bind_eq_ok_iff]
  by_cases hnil : entries = []
  · subst hnil
    constructor
    · rintro ⟨ps, -, hr⟩
      exact ⟨[], .nil, (Except.ok.inj hr).symm⟩
    · rintro ⟨os, hos, rfl⟩
      cases hos
      exact ⟨[], rfl, rfl⟩
  · rw [preparation_of_ne_nil hnil]
    simp only [Outcome.map_eq_ok_iff, prepareAll_eq_ok_iff]
    constructor
    · rintro ⟨ps, hps, os, hos, rfl⟩
      exact ⟨os, accounts_of_slots hps hos, rfl⟩
    · rintro ⟨os, hos, rfl⟩
      cases hps : (prepareAll w c units).outcome with
      | ok ps =>
        have hps' := prepareAll_eq_ok_iff.mp hps
        exact ⟨ps, hps', os, hos.slots hps', rfl⟩
      | error e =>
        -- A unit that strands the run meets some entry point, and comes to no end there.
        obtain ⟨u, hu, hstrands⟩ := prepareAll_eq_error hps
        obtain ⟨entry, hentry⟩ := List.exists_mem_of_ne_nil entries hnil
        obtain ⟨o, p, hp, -⟩ := hos.of_mem hentry hu
        exact absurd hstrands (hp.not_strands e)

/-- A run without a result was stranded by a unit, or something that an analyzer raised went
through. -/
theorem run_eq_error {jobs : Int} (hjobs : 1 ≤ jobs) {units : List String}
    {entries : List EntryPoint} {errors : List String} {e : Failure}
    (h : (run w c jobs units entries errors).outcome = .error e) :
    ∃ entry ∈ entries, ∃ unit ∈ units, Strands w c unit e ∨
      ∃ p escape, Readies w c unit p ∧ Escapes entry p escape ∧ e = escape.failure := by
  rw [run_outcome w c hjobs, Outcome.bind_eq_error_iff] at h
  by_cases hnil : entries = []
  · subst hnil
    rcases h with h | ⟨ps, -, h⟩
    · cases h
    · cases h
  · rw [preparation_of_ne_nil hnil] at h
    rcases h with h | ⟨ps, hps, h⟩
    · obtain ⟨u, hu, hstrands⟩ := prepareAll_eq_error h
      obtain ⟨entry, hentry⟩ := List.exists_mem_of_ne_nil entries hnil
      exact ⟨entry, hentry, u, hu, Or.inl hstrands⟩
    · rw [Outcome.map_eq_error_iff, Outcome.mapM_eq_error_iff] at h
      obtain ⟨before, s, after, hslots, -, hs⟩ := h
      have hmem : s ∈ Engine.slots entries ps := by
        rw [hslots]
        simp
      obtain ⟨m, hm, hentry, hunit, hp⟩ :=
        Outcome.forall₂_right_mem
          (forall₂_meetings_slots (prepareAll_eq_ok_iff.mp hps) entries) hmem
      obtain ⟨entry, unit⟩ := m
      obtain ⟨entry', unit', p⟩ := s
      obtain rfl : entry' = entry := hentry
      obtain rfl : unit' = unit := hunit
      obtain ⟨escape, hescapes, he⟩ := settle_eq_error_iff.mp hs
      obtain ⟨hentry, hunit⟩ := mem_meetings.mp hm
      exact ⟨_, hentry, _, hunit, Or.inr ⟨p, escape, hp, hescapes, he⟩⟩

theorem exists_result_iff {jobs : Int} (hjobs : 1 ≤ jobs) {units : List String}
    {entries : List EntryPoint} {errors : List String} :
    (∃ r, (run w c jobs units entries errors).outcome = .ok r) ↔
      ∀ entry ∈ entries, ∀ unit ∈ units, (∀ e, ¬ Strands w c unit e) ∧
        ∀ p escape, Readies w c unit p → ¬ Escapes entry p escape := by
  constructor
  · rintro ⟨r, hr⟩ entry hentry unit hunit
    obtain ⟨os, hos, -⟩ := (run_eq_ok_iff hjobs).mp hr
    obtain ⟨o, p, hp, ho⟩ := hos.of_mem hentry hunit
    refine ⟨hp.not_strands, ?_⟩
    intro p' escape hp' hescapes
    rw [hp'.unique hp] at hescapes
    exact ho.not_escapes escape hescapes
  · intro h
    cases hrun : (run w c jobs units entries errors).outcome with
    | ok r => exact ⟨r, rfl⟩
    | error e =>
      obtain ⟨entry, hentry, unit, hunit, hcase⟩ := run_eq_error hjobs hrun
      obtain ⟨hstrands, hnone⟩ := h entry hentry unit hunit
      rcases hcase with hs | ⟨p, escape, hp, hescapes, -⟩
      · exact absurd hs (hstrands e)
      · exact absurd hescapes (hnone p escape hp)

/-- Settling more slots adds what comes of them to the result. -/
theorem mapM_settle_append (errors : List String) (ss more : List Slot) :
    resultOf errors <$> (ss ++ more).mapM settle = (do
      let a ← resultOf errors <$> ss.mapM settle
      let b ← resultOf [] <$> more.mapM settle
      .ok ⟨a.diagnostics ++ b.diagnostics, a.errors ++ b.errors⟩) := by
  rw [List.mapM_append]
  cases ss.mapM settle with
  | error e => rfl
  | ok os =>
    cases more.mapM settle with
    | error e => rfl
    | ok os' =>
      show Except.ok (resultOf errors (os ++ os')) = _
      rw [resultOf, List.flatMap_append, List.filterMap_append, ← List.append_assoc]
      rfl

/-- A run over more entry points is a run over the first ones and a run over the others, one after
the other. -/
theorem run_append {jobs : Int} (hjobs : 1 ≤ jobs) (units : List String)
    (es more : List EntryPoint) (errors : List String) :
    (run w c jobs units (es ++ more) errors).outcome = (do
      let a ← (run w c jobs units es errors).outcome
      let b ← (run w c jobs units more []).outcome
      .ok ⟨a.diagnostics ++ b.diagnostics, a.errors ++ b.errors⟩) := by
  have hnone : ∀ errors, (run w c jobs units [] errors).outcome = .ok (resultOf errors []) := by
    intro errors
    rw [run_outcome w c hjobs]
    rfl
  by_cases hes : es = []
  · subst hes
    rw [hnone, List.nil_append, run_outcome w c hjobs, run_outcome w c hjobs]
    cases (preparation w c units more).outcome with
    | error e => rfl
    | ok ps =>
      cases hmore : (slots more ps).mapM settle with
      | error e => simp only [bind, Except.bind, hmore, Functor.map, Except.map]
      | ok os => simp [bind, Except.bind, hmore, Functor.map, Except.map, resultOf]
  · by_cases hmore : more = []
    · subst hmore
      rw [hnone, List.append_nil]
      cases (run w c jobs units es errors).outcome with
      | error e => rfl
      | ok r => simp [bind, Except.bind, resultOf]
    · have hboth : es ++ more ≠ [] := List.append_ne_nil_of_left_ne_nil hes more
      rw [run_outcome w c hjobs, run_outcome w c hjobs, run_outcome w c hjobs,
        preparation_of_ne_nil hes, preparation_of_ne_nil hmore, preparation_of_ne_nil hboth]
      cases (prepareAll w c units).outcome with
      | error e => rfl
      | ok ps =>
        show resultOf errors <$> (slots (es ++ more) ps).mapM settle = _
        rw [slots_append, mapM_settle_append]
        rfl

/-- **A run accounts for every meeting.**  Its errors are those that were there before, and then one
for each meeting that failed; its findings are those of the meetings that did not; both stand in the
order of the meetings.  There is no result only where a unit strands the run or what an entry point
raises goes through, and a unit that can be read strands it only by lying too deep. -/
theorem run_accounts (w : Workspace) (c : TargetsConfig) {jobs : Int} (hjobs : 1 ≤ jobs)
    (units : List String) (entries : List EntryPoint) (errors : List String) :
    (∀ r, (run w c jobs units entries errors).outcome = .ok r ↔
      ∃ os : List SlotOutcome,
        List.Forall₂ (fun m o => ∃ p, Readies w c m.2 p ∧ Settles m.1 m.2 p o)
          (entries.flatMap fun e => units.map fun u => (e, u)) os ∧
        r.diagnostics = os.flatMap SlotOutcome.found ∧
        r.errors = errors ++ os.filterMap SlotOutcome.error?) ∧
    ((∃ r, (run w c jobs units entries errors).outcome = .ok r) ↔
      ∀ entry ∈ entries, ∀ unit ∈ units, (∀ e, ¬ Strands w c unit e) ∧
        ∀ p escape, Readies w c unit p → ¬ Escapes entry p escape) ∧
    ((∀ n ∈ w.cwd, Spellable n) → ∀ unit e, Strands w c unit e ↔
      Workspace.pathFault? (Path.ofString unit).toString = some e ∨
      (∃ file, w.openFile (Path.ofString unit) = .ok file) ∧
        w.locate (w.normalize (Path.ofString unit)) = .error .nameTooLong ∧
        e = .os ⟨.nameTooLong, (w.normalize (Path.ofString unit)).toString⟩) ∧
    ∀ more : List EntryPoint, (run w c jobs units (entries ++ more) errors).outcome = (do
      let a ← (run w c jobs units entries errors).outcome
      let b ← (run w c jobs units more []).outcome
      .ok ⟨a.diagnostics ++ b.diagnostics, a.errors ++ b.errors⟩) := by
  refine ⟨?_, exists_result_iff hjobs, fun hcwd _ _ => strands_iff hcwd, ?_⟩
  · intro r
    rw [run_eq_ok_iff hjobs]
    constructor
    · rintro ⟨os, hos, rfl⟩
      exact ⟨os, hos, rfl, rfl⟩
    · rintro ⟨os, hos, hds, hes⟩
      refine ⟨os, hos, ?_⟩
      rw [resultOf, ← hds, ← hes]
  · intro more
    exact run_append hjobs units entries more errors

/-- A unit that is gone, and an entry point that raises behind a finding. -/
theorem run_accounts_for_two_entries :
    ∃ os : List SlotOutcome,
      List.Forall₂
        (fun m o => ∃ p, Readies ⟨.dir [("a.py", .file ⟨[]⟩)], [], [], .bare⟩ {} m.2 p ∧
          Settles m.1 m.2 p o)
        ([(⟨"one", fun _ => .now (.items [.item (.finding ⟨"R", .error, "m", "", none, []⟩)])⟩ :
            EntryPoint),
          ⟨"two", fun _ => .later (.items [.item (.finding ⟨"R", .error, "m", "", none, []⟩),
            .raise (.exception "ValueError" "bad")])⟩].flatMap
          fun e => ["a.py", "gone.py"].map fun u => (e, u)) os ∧
      [⟨"R", .error, "m", "one", none, []⟩] = os.flatMap SlotOutcome.found ∧
      ["seed",
        "Analyzer 'one' failed on gone.py: FileNotFoundError: [Errno 2] "
          ++ "No such file or directory: 'gone.py'",
        "Analyzer 'two' failed on a.py: ValueError: bad",
        "Analyzer 'two' failed on gone.py: FileNotFoundError: [Errno 2] "
          ++ "No such file or directory: 'gone.py'"] =
        ["seed"] ++ os.filterMap SlotOutcome.error? :=
  ((run_accounts _ _ (show (1 : Int) ≤ 2 by decide) _ _ _).1 ⟨_, _⟩).mp (by decide +kernel)

/-- A long name. -/
@[irreducible] def longName : String := String.ofList (List.replicate 250 'd')

/-- The name of a unit. -/
@[irreducible] def deepUnit : String := String.ofList (List.replicate 100 'b')

theorem length_longName : longName.toList.length = 250 := by
  unfold longName
  rw [String.toList_ofList, List.length_replicate]

theorem length_deepUnit : deepUnit.toList.length = 100 := by
  unfold deepUnit
  rw [String.toList_ofList, List.length_replicate]

/-- Sixteen directories with long names, each in the one before, and the unit in the last of them,
which is the working directory. -/
def deepPlace : Workspace :=
  ⟨(List.replicate 16 longName).foldr (fun n t => .dir [(n, t)])
    (.dir [(deepUnit, .file ⟨[]⟩)]), List.replicate 16 longName, [], .bare⟩

/-- A unit that can be read strands a run all the same. -/
theorem run_of_deepUnit :
    (deepPlace.openFile (Path.ofString deepUnit)).isOk ∧
    (run deepPlace {} 1 [deepUnit] [⟨"e", fun _ => .now .nothing⟩] []).outcome =
      .error (.os ⟨.nameTooLong, (deepPlace.normalize (Path.ofString deepUnit)).toString⟩) := by
  have hpath : Path.ofString deepUnit = ⟨.relative, [deepUnit]⟩ := by decide +kernel
  have hok : (deepPlace.openFile (Path.ofString deepUnit)).isOk := by
    rw [hpath]
    decide +kernel
  have hcwd : ∀ n ∈ deepPlace.cwd, Spellable n := by
    intro n hn
    rw [List.eq_of_mem_replicate hn]
    decide +kernel
  have hclean : Path.up ∉ List.replicate 16 longName ++ [deepUnit] := by
    intro hmem
    rcases List.mem_append.mp hmem with hd | hd
    · exact absurd (List.eq_of_mem_replicate hd) (by decide +kernel)
    · exact absurd (List.mem_singleton.mp hd) (by decide +kernel)
  have hnames : (deepPlace.normalize (Path.ofString deepUnit)).names =
      List.replicate 16 longName ++ [deepUnit] := by
    rw [hpath]
    exact Path.collapse_of_clean hclean
  have hlong : Workspace.maxPathBytes <
      ((deepPlace.normalize (Path.ofString deepUnit)).names.map fun n => n.toList.length).sum := by
    rw [hnames, List.map_append, List.map_replicate, List.map_singleton, length_longName,
      length_deepUnit]
    decide
  refine ⟨hok, ?_⟩
  cases hopen : deepPlace.openFile (Path.ofString deepUnit) with
  | error e =>
    rw [hopen] at hok
    cases hok
  | ok file =>
    have hstrands : Strands deepPlace {} deepUnit _ :=
      (strands_iff hcwd).mpr (Or.inr ⟨⟨file, hopen⟩, Workspace.locate_of_long hlong, rfl⟩)
    rw [run_outcome _ _ (Int.le_refl 1), preparation_of_ne_nil (List.cons_ne_nil _ _),
      prepareAll_outcome, List.mapM_cons, prepare_of_strands hstrands]
    rfl

end LintHost.Engine
