/-
What comes of a slot, by what the analyzer does.

`Settles` lists the ways a slot can go: its unit cannot be read, the call raises, nothing is handed
over, what is handed over cannot be gone through, and, where it can, only findings come, or findings
up to something raised, or findings up to an item that is none.  Each way says what the slot gives:
the findings as they are, with the name of the entry point where an origin is missing, or the words
of one error.  `Escapes` lists the ways something goes through: an interrupt, or what is raised in
the place of a text when an exception is asked for it.

`settle_eq_ok_iff` and `settle_eq_error_iff` say that these are all the ways, and that the program
goes them.  The induction behind both is over what is handed over: `collect` either keeps every item
or stops at the first that is no finding.
-/
import LintHost.Proofs.Engine.Slot

namespace LintHost.Engine

/-- Findings handed over one after the other. -/
def handedOver (ds : List Diagnostic) : List Delivery := ds.map fun d => .item (.finding d)

/-- The error of a slot: the name, the unit, and the kind and the words of what went wrong. -/
def slotError (name unit kind text : String) : String :=
  "Analyzer '" ++ name ++ "' failed on " ++ unit ++ ": " ++ kind ++ ": " ++ text

/-- What comes of an entry point at a unit, given what is known of the unit. -/
inductive Settles (entry : EntryPoint) (unit : String) : Prepared → SlotOutcome → Prop
  /-- The unit cannot be read. -/
  | unreadable (f : OsFailure) :
      Settles entry unit (.error f) (.error (slotError entry.name unit f.cause.kind f.message))
  /-- The call raises, or the coroutine that it gives does. -/
  | raised {c : Context} {kind text : String}
      (h : (entry.call c).outcome = .raised (.exception kind text)) :
      Settles entry unit (.ok c) (.error (slotError entry.name unit kind text))
  /-- There is nothing to go through. -/
  | nothing {c : Context} (h : (entry.call c).outcome = .nothing) :
      Settles entry unit (.ok c) (.ok [])
  /-- The answer cannot be gone through. -/
  | notIterable {c : Context} {kind : String} (h : (entry.call c).outcome = .notIterable kind) :
      Settles entry unit (.ok c)
        (.error (slotError entry.name unit "TypeError" ("'" ++ kind ++ "' object is not iterable")))
  /-- Findings, and nothing else. -/
  | kept {c : Context} {ds : List Diagnostic}
      (h : (entry.call c).outcome = .items (handedOver ds)) :
      Settles entry unit (.ok c) (.ok (ds.map (withOrigin entry.name)))
  /-- Findings, and then something is raised. -/
  | brokenOff {c : Context} {ds : List Diagnostic} {kind text : String} {rest : List Delivery}
      (h : (entry.call c).outcome =
        .items (handedOver ds ++ .raise (.exception kind text) :: rest)) :
      Settles entry unit (.ok c) (.error (slotError entry.name unit kind text))
  /-- Findings, and then an item that is none. -/
  | junk {c : Context} {ds : List Diagnostic} {kind : String} {rest : List Delivery}
      (h : (entry.call c).outcome = .items (handedOver ds ++ .item (.other kind) :: rest)) :
      Settles entry unit (.ok c)
        (.error (slotError entry.name unit "TypeError" ("expected Diagnostic, got " ++ kind)))

/-- Something goes through an entry point, given what is known of the unit: what was raised cannot
be told. -/
inductive Escapes (entry : EntryPoint) : Prepared → Escape → Prop
  /-- The call raises it, or the coroutine that it gives does. -/
  | called {c : Context} {raised : Raised} {e : Escape} (htold : raised.told = .error e)
      (h : (entry.call c).outcome = .raised raised) : Escapes entry (.ok c) e
  /-- Going through the items raises it. -/
  | iterated {c : Context} {ds : List Diagnostic} {raised : Raised} {e : Escape}
      {rest : List Delivery} (htold : raised.told = .error e)
      (h : (entry.call c).outcome = .items (handedOver ds ++ .raise raised :: rest)) :
      Escapes entry (.ok c) e

/-! ### Going through items -/

theorem collect_handedOver (name : String) (ds : List Diagnostic) :
    collect name (handedOver ds) = .ok (ds.map (withOrigin name)) := by
  induction ds with
  | nil => rfl
  | cons d rest ih =>
    show (withOrigin name d :: ·) <$> collect name (handedOver rest) = _
    rw [ih]
    rfl

/-- What comes behind findings decides, once something is no finding. -/
theorem collect_append_of_error {name : String} {steps : List Delivery} {e : Raised}
    (h : collect name steps = .error e) (ds : List Diagnostic) :
    collect name (handedOver ds ++ steps) = .error e := by
  induction ds with
  | nil => exact h
  | cons d rest ih =>
    show (withOrigin name d :: ·) <$> collect name (handedOver rest ++ steps) = _
    rw [ih]
    rfl

theorem collect_raise (name : String) (ds : List Diagnostic) (e : Raised) (rest : List Delivery) :
    collect name (handedOver ds ++ .raise e :: rest) = .error e :=
  collect_append_of_error rfl ds

theorem collect_other (name : String) (ds : List Diagnostic) (kind : String)
    (rest : List Delivery) :
    collect name (handedOver ds ++ .item (.other kind) :: rest) = .error (notFinding kind) :=
  collect_append_of_error rfl ds

/-- What is handed over is findings up to the end, up to something raised, or up to an item that is
no finding. -/
theorem handedOver_cases (steps : List Delivery) :
    (∃ ds, steps = handedOver ds) ∨
    (∃ ds e rest, steps = handedOver ds ++ .raise e :: rest) ∨
    ∃ ds kind rest, steps = handedOver ds ++ .item (.other kind) :: rest := by
  induction steps with
  | nil => exact Or.inl ⟨[], rfl⟩
  | cons s steps ih =>
    cases s with
    | raise e => exact Or.inr (Or.inl ⟨[], e, steps, rfl⟩)
    | item i =>
      cases i with
      | other kind => exact Or.inr (Or.inr ⟨[], kind, steps, rfl⟩)
      | finding d =>
        rcases ih with ⟨ds, rfl⟩ | ⟨ds, e, rest, rfl⟩ | ⟨ds, kind, rest, rfl⟩
        · exact Or.inl ⟨d :: ds, rfl⟩
        · exact Or.inr (Or.inl ⟨d :: ds, e, rest, rfl⟩)
        · exact Or.inr (Or.inr ⟨d :: ds, kind, rest, rfl⟩)

/-! ### The ways of a slot -/

/-- A slot goes one of the ways. -/
theorem settles_or_escapes (entry : EntryPoint) (unit : String) (p : Prepared) :
    (∃ o, Settles entry unit p o) ∨ ∃ e, Escapes entry p e := by
  cases p with
  | error f => exact Or.inl ⟨_, .unreadable f⟩
  | ok c =>
    cases h : (entry.call c).outcome with
    | raised e =>
      cases e with
      | exception kind text => exact Or.inl ⟨_, .raised h⟩
      | speechless kind instead => exact Or.inr ⟨_, .called rfl h⟩
      | interrupt kind => exact Or.inr ⟨_, .called rfl h⟩
    | nothing => exact Or.inl ⟨_, .nothing h⟩
    | notIterable kind => exact Or.inl ⟨_, .notIterable h⟩
    | items steps =>
      rcases handedOver_cases steps with ⟨ds, rfl⟩ | ⟨ds, e, rest, rfl⟩ | ⟨ds, kind, rest, rfl⟩
      · exact Or.inl ⟨_, .kept h⟩
      · cases e with
        | exception kind text => exact Or.inl ⟨_, .brokenOff h⟩
        | speechless kind instead => exact Or.inr ⟨_, .iterated rfl h⟩
        | interrupt kind => exact Or.inr ⟨_, .iterated rfl h⟩
      · exact Or.inl ⟨_, .junk h⟩

theorem failureText_eq (entry : EntryPoint) (unit kind text : String) :
    failureText entry unit (kind ++ ": " ++ text) = slotError entry.name unit kind text := by
  unfold failureText slotError
  rw [← String.append_assoc, ← String.append_assoc]

theorem settle_of_findings {entry : EntryPoint} {c : Context} {ds : List Diagnostic}
    (h : findings entry c = .ok ds) (unit : String) :
    settle (entry, unit, .ok c) = .ok (.ok ds) := by
  simp only [settle, invoke, h]

theorem settle_of_exception {entry : EntryPoint} {c : Context} {kind text : String}
    (h : findings entry c = .error (.exception kind text)) (unit : String) :
    settle (entry, unit, .ok c) = .ok (.error (slotError entry.name unit kind text)) := by
  rw [← failureText_eq]
  simp only [settle, invoke, h]
  rfl

theorem settle_of_untold {entry : EntryPoint} {c : Context} {raised : Raised} {e : Escape}
    (h : findings entry c = .error raised) (htold : raised.told = .error e) (unit : String) :
    settle (entry, unit, .ok c) = .error e.failure := by
  simp only [settle, invoke, h, htold, Except.map]

theorem settle_of_settles {entry : EntryPoint} {unit : String} {p : Prepared} {o : SlotOutcome}
    (h : Settles entry unit p o) : settle (entry, unit, p) = .ok o := by
  cases h with
  | unreadable f =>
    rw [← failureText_eq]
    rfl
  | raised h =>
    refine settle_of_exception ?_ unit
    rw [findings, h]
  | nothing h =>
    refine settle_of_findings ?_ unit
    rw [findings, h]
  | notIterable h =>
    refine settle_of_exception ?_ unit
    rw [findings, h]
    rfl
  | kept h =>
    refine settle_of_findings ?_ unit
    rw [findings, h]
    exact collect_handedOver _ _
  | brokenOff h =>
    refine settle_of_exception ?_ unit
    rw [findings, h]
    exact collect_raise _ _ _ _
  | junk h =>
    refine settle_of_exception ?_ unit
    rw [findings, h]
    exact collect_other _ _ _ _

theorem settle_of_escapes {entry : EntryPoint} {unit : String} {p : Prepared} {e : Escape}
    (h : Escapes entry p e) : settle (entry, unit, p) = .error e.failure := by
  cases h with
  | called htold h =>
    refine settle_of_untold ?_ htold unit
    rw [findings, h]
  | iterated htold h =>
    refine settle_of_untold ?_ htold unit
    rw [findings, h]
    exact collect_raise _ _ _ _

theorem Settles.not_escapes {entry : EntryPoint} {unit : String} {p : Prepared} {o : SlotOutcome}
    (h : Settles entry unit p o) (e : Escape) : ¬ Escapes entry p e := by
  intro hescapes
  have hsame := settle_of_settles h
  rw [settle_of_escapes hescapes] at hsame
  cases hsame

/-- **What comes of a slot is what its way says.** -/
theorem settle_eq_ok_iff {entry : EntryPoint} {unit : String} {p : Prepared} {o : SlotOutcome} :
    settle (entry, unit, p) = .ok o ↔ Settles entry unit p o := by
  refine ⟨?_, settle_of_settles⟩
  intro h
  rcases settles_or_escapes entry unit p with ⟨o', ho'⟩ | ⟨e, hescapes⟩
  · rw [settle_of_settles ho'] at h
    rw [← Except.ok.inj h]
    exact ho'
  · rw [settle_of_escapes hescapes] at h
    cases h

/-- **A slot gives nothing only where something goes through.** -/
theorem settle_eq_error_iff {entry : EntryPoint} {unit : String} {p : Prepared} {f : Failure} :
    settle (entry, unit, p) = .error f ↔ ∃ e, Escapes entry p e ∧ f = e.failure := by
  constructor
  · intro h
    rcases settles_or_escapes entry unit p with ⟨o, ho⟩ | ⟨e, hescapes⟩
    · rw [settle_of_settles ho] at h
      cases h
    · rw [settle_of_escapes hescapes] at h
      exact ⟨e, hescapes, (Except.error.inj h).symm⟩
  · rintro ⟨e, hescapes, rfl⟩
    exact settle_of_escapes hescapes

end LintHost.Engine
