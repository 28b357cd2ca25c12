/-
Schedules of a pool of workers.

With more than one job the slots are handed to a pool.  Every slot has a place in a buffer, and
`Step` is a single move of the pool: a free worker takes any slot that is still pending, or a
worker writes what came of its slot, be it an interrupt, into the place of that slot.  Nothing says
which worker moves next, which slot it takes, or how long it is at it, so the runs of `Step` are all
the orders in which invocations can start and end; settling the slots in turn is one of them.  The
places are read in the order of the slots, up to the first interrupt.

Two facts carry the theory.  `Sound` is the invariant: a filled place holds what its slot settles
to, whoever filled it and when.  `remaining` is the measure: a move lowers it by one, and as long
as a place is not filled there is a move to make.  So every schedule fills the buffer, and fills it
alike; `ends_iff_outcome_single_job` is that conclusion for whole runs.
-/
import LintHost.Proofs.Engine.Slot
import Mathlib.Algebra.BigOperators.Group.List.Basic
import Mathlib.Algebra.Order.Ring.Nat
import Mathlib.Logic.Relation

namespace LintHost.Engine.Pool

/-- How far a slot has come. -/
inductive Place where
  | pending
  | taken (worker : Nat)
  | filled (r : Except Failure SlotOutcome)

/-- The places of the slots, in their order. -/
abbrev Buffer := List Place

/-- The buffer before the first move. -/
def start (ss : List Slot) : Buffer := ss.map fun _ => .pending

/-- A move of a pool with so many workers over some slots. -/
inductive Step (jobs : Int) (ss : List Slot) : Buffer → Buffer → Prop
  /-- A worker that is at no slot takes a pending one. -/
  | take {b : Buffer} {i worker : Nat} (hpending : b[i]? = some .pending)
      (hworker : (worker : Int) < jobs) (hfree : Place.taken worker ∉ b) :
      Step jobs ss b (b.set i (.taken worker))
  /-- A worker writes what came of its slot. -/
  | fill {b : Buffer} {i worker : Nat} {s : Slot} (htaken : b[i]? = some (.taken worker))
      (hslot : ss[i]? = some s) : Step jobs ss b (b.set i (.filled (settle s)))

/-- One buffer comes out of another by moves of the pool. -/
abbrev Reaches (jobs : Int) (ss : List Slot) : Buffer → Buffer → Prop :=
  Relation.ReflTransGen (Step jobs ss)

/-- Every place is filled. -/
def Full (b : Buffer) : Prop := ∃ rs : List (Except Failure SlotOutcome), b = rs.map Place.filled

/-- The places of slots that no interrupt went through. -/
def settled (os : List SlotOutcome) : Buffer := os.map fun o => .filled (.ok o)

/-- What a run can end with whose slots are settled by a pool. -/
inductive Ends (w : Workspace) (c : TargetsConfig) (jobs : Int) (units : List String)
    (entries : List EntryPoint) (errors : List String) : Except Failure AnalysisResult → Prop
  /-- A unit cannot be prepared, and no worker is started. -/
  | unprepared {e : Failure} (hprep : (preparation w c units entries).outcome = .error e) :
      Ends w c jobs units entries errors (.error e)
  /-- Some schedule has filled every place. -/
  | complete {ps : List (String × Prepared)} {os : List SlotOutcome}
      (hprep : (preparation w c units entries).outcome = .ok ps)
      (hrun : Reaches jobs (slots entries ps) (start (slots entries ps)) (settled os)) :
      Ends w c jobs units entries errors (.ok (resultOf errors os))
  /-- Some schedule has filled the places up to that of an interrupt. Slots behind it may be
  pending, and are not taken any more. -/
  | broken {ps : List (String × Prepared)} {os : List SlotOutcome} {e : Failure} {rest : Buffer}
      (hprep : (preparation w c units entries).outcome = .ok ps)
      (hrun : Reaches jobs (slots entries ps) (start (slots entries ps))
        (settled os ++ .filled (.error e) :: rest)) :
      Ends w c jobs units entries errors (.error e)

variable {jobs : Int} {ss : List Slot} {b b' : Buffer}

/-! ### The invariant

A place is written by the worker that took its slot, with what that slot settles to, and no other
place changes.  So what is in the buffer says nothing of the schedule that put it there.
-/

/-- A filled place holds what its slot settles to. -/
def Holds (s : Slot) (p : Place) : Prop := ∀ r, p = .filled r → settle s = r

/-- There is a place for each slot, and a filled one holds what its slot settles to. -/
abbrev Sound : List Slot → Buffer → Prop := List.Forall₂ Holds

theorem sound_start (ss : List Slot) : Sound ss (start ss) := by
  induction ss with
  | nil => exact .nil
  | cons s rest ih => exact .cons (fun r hr => by cases hr) ih

/-- Writing one place keeps the buffer sound if what is written there is. -/
theorem Sound.set {i : Nat} {p : Place} (h : Sound ss b)
    (hp : ∀ s, ss[i]? = some s → Holds s p) : Sound ss (b.set i p) := by
  induction h generalizing i with
  | nil => exact .nil
  | cons hhead htail ih =>
    cases i with
    | zero => exact .cons (hp _ rfl) htail
    | succ i => exact .cons hhead (ih fun s hs => hp s (by simpa using hs))

theorem Sound.step (h : Sound ss b) (hstep : Step jobs ss b b') : Sound ss b' := by
  cases hstep with
  | take hpending hworker hfree =>
    apply h.set
    intro s hs r hr
    cases hr
  | fill htaken hslot =>
    apply h.set
    intro s hs r hr
    rw [hslot] at hs
    cases hs
    cases hr
    rfl

theorem Sound.reaches (h : Sound ss b) (hrun : Reaches jobs ss b b') : Sound ss b' := by
  induction hrun with
  | refl => exact h
  | tail _ hstep ih => exact ih.step hstep

/-! ### What a buffer tells

Read in order, a sound buffer tells what settling the slots in turn tells.
-/

theorem Sound.mapM_of_settled {os : List SlotOutcome} (h : Sound ss (settled os)) :
    ss.mapM settle = .ok os := by
  induction os generalizing ss with
  | nil =>
    cases h
    rfl
  | cons o os ih =>
    obtain ⟨s, rest, hs, hrest, rfl⟩ := List.forall₂_cons_right_iff.mp h
    exact Outcome.mapM_cons_eq_ok.mpr ⟨o, os, hs _ rfl, ih hrest, rfl⟩

theorem Sound.mapM_of_broken {os : List SlotOutcome} {e : Failure} {rest : Buffer}
    (h : Sound ss (settled os ++ .filled (.error e) :: rest)) : ss.mapM settle = .error e := by
  induction os generalizing ss with
  | nil =>
    obtain ⟨s, more, hs, -, rfl⟩ := List.forall₂_cons_right_iff.mp h
    exact Outcome.mapM_cons_eq_error.mpr (Or.inl (hs _ rfl))
  | cons o os ih =>
    obtain ⟨s, more, hs, hmore, rfl⟩ := List.forall₂_cons_right_iff.mp h
    exact Outcome.mapM_cons_eq_error.mpr (Or.inr ⟨⟨o, hs _ rfl⟩, ih hmore⟩)

/-- A full buffer is settled slots, or settled slots up to an interrupt. -/
theorem Full.settled_or_broken (h : Full b) :
    (∃ os, b = settled os) ∨ ∃ os e rest, b = settled os ++ .filled (.error e) :: rest := by
  obtain ⟨rs, rfl⟩ := h
  induction rs with
  | nil => exact Or.inl ⟨[], rfl⟩
  | cons r rs ih =>
    cases r with
    | error e => exact Or.inr ⟨[], e, rs.map Place.filled, rfl⟩
    | ok o =>
      rcases ih with ⟨os, hos⟩ | ⟨os, e, rest, hos⟩
      · exact Or.inl ⟨o :: os, by rw [List.map_cons, hos]; rfl⟩
      · exact Or.inr ⟨o :: os, e, rest, by rw [List.map_cons, hos]; rfl⟩

/-! ### The measure

A pending slot is two moves from being filled and a taken one a single move.
-/

/-- The moves that a place still needs. -/
def Place.cost : Place → Nat
  | .pending => 2
  | .taken _ => 1
  | .filled _ => 0

/-- The moves that a buffer still needs. -/
def remaining (b : Buffer) : Nat := (b.map Place.cost).sum

theorem remaining_set {b : Buffer} {i : Nat} {p : Place} (q : Place) (hi : b[i]? = some p) :
    remaining (b.set i q) + p.cost = remaining b + q.cost := by
  unfold remaining
  induction b generalizing i with
  | nil => cases hi
  | cons r rest ih =>
    cases i with
    | zero =>
      cases hi
      simp only [List.set_cons_zero, List.map_cons, List.sum_cons]
      omega
    | succ i =>
      have := ih (i := i) (by simpa using hi)
      simp only [List.set_cons_succ, List.map_cons, List.sum_cons]
      omega

theorem remaining_step (h : Step jobs ss b b') : remaining b = remaining b' + 1 := by
  cases h with
  | @take i worker hpending hworker hfree =>
    have := remaining_set (.taken worker) hpending
    simp only [Place.cost] at this
    omega
  | @fill i worker s htaken hslot =>
    have := remaining_set (.filled (settle s)) htaken
    simp only [Place.cost] at this
    omega

/-- No schedule goes on for ever. -/
theorem step_wellFounded (jobs : Int) (ss : List Slot) :
    WellFounded fun b' b => Step jobs ss b b' := by
  have hlower : ∀ {b' b}, Step jobs ss b b' → remaining b' < remaining b := by
    intro b' b h
    have hmove := remaining_step h
    omega
  exact Subrelation.wf hlower (measure remaining).wf

/-! ### There is always a move to make

A slot that is taken can be filled, and where none is taken every worker is free.
-/

theorem full_of_filled (h : ∀ p ∈ b, ∃ r, p = Place.filled r) : Full b := by
  induction b with
  | nil => exact ⟨[], rfl⟩
  | cons p rest ih =>
    obtain ⟨r, rfl⟩ := h p (by simp)
    obtain ⟨rs, rfl⟩ := ih fun q hq => h q (by simp [hq])
    exact ⟨r :: rs, rfl⟩

theorem full_or_step (hjobs : 1 ≤ jobs) (h : Sound ss b) : Full b ∨ ∃ b', Step jobs ss b b' := by
  by_cases htaken : ∃ worker, Place.taken worker ∈ b
  · obtain ⟨worker, hmem⟩ := htaken
    obtain ⟨i, hi, hbi⟩ := List.getElem_of_mem hmem
    have his : i < ss.length := by rw [h.length_eq]; exact hi
    exact Or.inr ⟨_, .fill (by rw [List.getElem?_eq_getElem hi, hbi])
      (List.getElem?_eq_getElem his)⟩
  · by_cases hpending : Place.pending ∈ b
    · obtain ⟨i, hi, hbi⟩ := List.getElem_of_mem hpending
      have hplace : b[i]? = some .pending := by rw [List.getElem?_eq_getElem hi, hbi]
      have hworker : ((0 : Nat) : Int) < jobs := by omega
      have hfree : Place.taken 0 ∉ b := by
        intro hmem
        exact htaken ⟨0, hmem⟩
      exact Or.inr ⟨_, .take hplace hworker hfree⟩
    · left
      apply full_of_filled
      intro p hp
      cases p with
      | pending => exact absurd hp hpending
      | taken worker => exact absurd ⟨worker, hp⟩ htaken
      | filled r => exact ⟨r, rfl⟩

/-- Every sound buffer can be filled. -/
theorem exists_full (hjobs : 1 ≤ jobs) :
    ∀ b, Sound ss b → ∃ b', Full b' ∧ Reaches jobs ss b b' := by
  intro b
  induction b using (step_wellFounded jobs ss).induction with
  | _ b ih =>
    intro hb
    rcases full_or_step hjobs hb with hfull | ⟨b', hstep⟩
    · exact ⟨b, hfull, .refl⟩
    · obtain ⟨b'', hfull, hrun⟩ := ih b' hstep (hb.step hstep)
      exact ⟨b'', hfull, .head hstep hrun⟩

/-! ### Whole runs -/

/-- A run over a pool ends as settling the slots in turn does. -/
theorem Ends.eq_outcome {w : Workspace} {c : TargetsConfig} {units : List String}
    {entries : List EntryPoint} {errors : List String} {o : Except Failure AnalysisResult}
    (h : Ends w c jobs units entries errors o) :
    o = (run w c 1 units entries errors).outcome := by
  rw [run_outcome w c (Int.le_refl 1)]
  cases h with
  | unprepared hprep =>
    rw [hprep]
    rfl
  | @complete ps os hprep hrun =>
    rw [hprep]
    show _ = resultOf errors <$> (slots entries ps).mapM settle
    rw [((sound_start _).reaches hrun).mapM_of_settled]
    rfl
  | @broken ps os e rest hprep hrun =>
    rw [hprep]
    show _ = resultOf errors <$> (slots entries ps).mapM settle
    rw [((sound_start _).reaches hrun).mapM_of_broken]
    rfl

/-- A run over a pool can end. -/
theorem exists_ends (w : Workspace) (c : TargetsConfig) (hjobs : 1 ≤ jobs) (units : List String)
    (entries : List EntryPoint) (errors : List String) :
    ∃ o, Ends w c jobs units entries errors o := by
  cases hprep : (preparation w c units entries).outcome with
  | error e => exact ⟨_, .unprepared hprep⟩
  | ok ps =>
    obtain ⟨b, hfull, hrun⟩ := exists_full hjobs _ (sound_start (slots entries ps))
    rcases hfull.settled_or_broken with ⟨os, rfl⟩ | ⟨os, e, rest, rfl⟩
    · exact ⟨_, .complete hprep hrun⟩
    · exact ⟨_, .broken hprep hrun⟩

/-- **Whatever the schedule, a run over a pool ends as a run with a single job does.**  So does
`run` itself, which settles the slots in turn.  No schedule goes on for ever, and until the buffer
is full there is a move to make. -/
theorem ends_iff_outcome_single_job (w : Workspace) (c : TargetsConfig) {jobs : Int}
    (hjobs : 1 ≤ jobs) (units : List String) (entries : List EntryPoint) (errors : List String) :
    (∀ o, Ends w c jobs units entries errors o ↔ o = (run w c 1 units entries errors).outcome) ∧
    (run w c jobs units entries errors).outcome = (run w c 1 units entries errors).outcome ∧
    ∀ ps, (preparation w c units entries).outcome = .ok ps →
      (WellFounded fun b' b => Step jobs (slots entries ps) b b') ∧
      ∀ b, Reaches jobs (slots entries ps) (start (slots entries ps)) b →
        Full b ∨ ∃ b', Step jobs (slots entries ps) b b' := by
  refine ⟨fun o => ⟨Ends.eq_outcome, ?_⟩, ?_, fun ps _ => ⟨step_wellFounded jobs _, ?_⟩⟩
  · rintro rfl
    obtain ⟨o, ho⟩ := exists_ends w c hjobs units entries errors
    rw [← ho.eq_outcome]
    exact ho
  · rw [run_outcome w c hjobs, run_outcome w c (Int.le_refl 1)]
  · intro b hrun
    exact full_or_step hjobs ((sound_start _).reaches hrun)

/-- Three workers, a unit that is gone, and an entry point that raises behind a finding. -/
theorem ends_of_three_workers :
    Ends ⟨.dir [("a.py", .file ⟨[]⟩)], [], [], .bare⟩ {} 3 ["a.py", "gone.py"]
      [⟨"one", fun _ => .now (.items [.item (.finding ⟨"R", .error, "m", "", none, []⟩)])⟩,
        ⟨"two", fun _ => .later (.items [.item (.finding ⟨"R", .error, "m", "", none, []⟩),
          .raise (.exception "ValueError" "bad")])⟩]
      ["seed"]
      (.ok ⟨[⟨"R", .error, "m", "one", none, []⟩],
        ["seed",
          "Analyzer 'one' failed on gone.py: FileNotFoundError: [Errno 2] "
            ++ "No such file or directory: 'gone.py'",
          "Analyzer 'two' failed on a.py: ValueError: bad",
          "Analyzer 'two' failed on gone.py: FileNotFoundError: [Errno 2] "
            ++ "No such file or directory: 'gone.py'"]⟩) :=
  ((ends_iff_outcome_single_job _ _ (by decide) _ _ _).1 _).mpr (by decide +kernel)

end LintHost.Engine.Pool
