/-
What a run makes of its slots.

A slot is the meeting of an entry point and a unit.  `settle` is what comes of one slot alone:
findings, or an error of the result.  `resultOf` puts a result together from what came of the slots
in their order.

`run` goes through the slots in one pass that settles, notes and collects at once.
`run_outcome` takes the pass apart: as far as its outcome goes, a run prepares the units, then
settles every slot, then puts the result together.  Whatever is proved about runs rests on that
equation, and on `settle`; the pass itself is not opened again.
-/
import LintHost.Engine
import LintHost.Proofs.Outcome

namespace LintHost.Engine

/-- The meeting of an entry point and a unit. -/
abbrev Slot := EntryPoint × String × Prepared

/-- What comes of a slot: findings, or an error of the result. -/
abbrev SlotOutcome := Except String (List Diagnostic)

/-- The findings that a slot gives to the result. -/
def SlotOutcome.found : SlotOutcome → List Diagnostic
  | .ok ds => ds
  | .error _ => []

/-- The error that a slot gives to the result. -/
def SlotOutcome.error? : SlotOutcome → Option String
  | .ok _ => none
  | .error e => some e

/-- What comes of a slot, unless something goes through. -/
def settle (s : Slot) : Except Failure SlotOutcome :=
  match invoke s.1 s.2.2 with
  | .error e => .error e.failure
  | .ok (.ok ds) => .ok (.ok ds)
  | .ok (.error why) => .ok (.error (failureText s.1 s.2.1 why))

/-- The result of settled slots, after the errors that were there before. -/
def resultOf (errors : List String) (os : List SlotOutcome) : AnalysisResult :=
  ⟨os.flatMap SlotOutcome.found, errors ++ os.filterMap SlotOutcome.error?⟩

/-! ### The pass over the slots -/

/-- The pass settles the slots in turn and collects what comes of them. -/
theorem runSlots_outcome (ss : List Slot) :
    (runSlots ss).outcome =
      (fun os => (os.flatMap SlotOutcome.found, os.filterMap SlotOutcome.error?))
        <$> ss.mapM settle := by
  induction ss with
  | nil => rfl
  | cons s rest ih =>
    obtain ⟨entry, unit, p⟩ := s
    rw [List.mapM_cons, runSlots]
    cases hs : invoke entry p with
    | error e =>
      have hset : settle (entry, unit, p) = .error e.failure := by
        simp only [settle, hs]
      rw [hset]
      rfl
    | ok o =>
      cases o with
      | ok ds =>
        have hset : settle (entry, unit, p) = .ok (.ok ds) := by simp only [settle, hs]
        rw [hset]
        simp only [Journal.bind_outcome, ih]
        cases rest.mapM settle <;> rfl
      | error why =>
        have hset : settle (entry, unit, p) = .ok (.error (failureText entry unit why)) := by
          simp only [settle, hs]
        rw [hset]
        simp only [Journal.bind_outcome, Journal.note_outcome, ih]
        cases rest.mapM settle <;> rfl

/-- **A run prepares the units, settles every slot, and puts the result together.** -/
theorem run_outcome (w : Workspace) (c : TargetsConfig) {jobs : Int} (hjobs : 1 ≤ jobs)
    (units : List String) (entries : List EntryPoint) (errors : List String) :
    (run w c jobs units entries errors).outcome =
      (preparation w c units entries).outcome >>= fun ps =>
        resultOf errors <$> (slots entries ps).mapM settle := by
  rw [run, if_neg (by omega), Journal.bind_outcome]
  congr 1
  funext ps
  rw [Journal.bind_outcome, runSlots_outcome]
  cases (slots entries ps).mapM settle <;> rfl

/-- A run over a target is a run over its units. -/
theorem runTarget_outcome {w : Workspace} {c : TargetsConfig} {jobs : Int} {target : String}
    {entries : List EntryPoint} {errors : List String} :
    (runTarget w c jobs target entries errors).outcome =
      (Target.resolve w c target).outcome >>= fun units =>
        (run w c jobs (units.map Path.toString) entries errors).outcome := by
  unfold runTarget
  rw [Journal.bind_outcome]
  congr 1
  funext units
  cases units.isEmpty with
  | false => rfl
  | true =>
    rw [if_pos rfl, Journal.bind_outcome]
    rfl

/-! ### Preparing the units -/

theorem prepareAll_outcome (w : Workspace) (c : TargetsConfig) (units : List String) :
    (prepareAll w c units).outcome =
      units.mapM fun u => (u, ·) <$> (prepare w c u).outcome := by
  induction units with
  | nil => rfl
  | cons u rest ih =>
    rw [List.mapM_cons]
    unfold prepareAll
    simp only [Journal.bind_outcome, ih]
    cases (prepare w c u).outcome with
    | error e => rfl
    | ok p => cases rest.mapM fun u => (u, ·) <$> (prepare w c u).outcome <;> rfl

end LintHost.Engine
