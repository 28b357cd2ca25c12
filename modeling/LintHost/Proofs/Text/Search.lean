/-
The first place of a text in another.

`FirstAt` says what it is for a text to stand first at an offset, and `offset?_eq_some_iff` that
this is what a search finds.  A search finds nothing exactly where the text stands nowhere,
`offset?_eq_none_iff`.
-/
import LintHost.Text.Search
import Mathlib.Data.List.Infix

namespace LintHost.Text

/-- The text stands at an offset, and at none before it. -/
structure FirstAt (needle s : List Char) (k : Nat) : Prop where
  occurs : needle <+: s.drop k
  first : ∀ j < k, ¬needle <+: s.drop j

variable {needle s : List Char} {c : Char} {k : Nat}

theorem firstAt_zero : FirstAt needle s 0 ↔ needle <+: s :=
  ⟨fun h => h.occurs, fun h => ⟨h, fun _ hj => absurd hj (Nat.not_lt_zero _)⟩⟩

theorem firstAt_succ :
    FirstAt needle (c :: s) (k + 1) ↔ ¬needle <+: c :: s ∧ FirstAt needle s k := by
  constructor
  · intro h
    refine ⟨h.first 0 (Nat.succ_pos k), h.occurs, fun j hj => ?_⟩
    exact h.first (j + 1) (Nat.succ_lt_succ hj)
  · rintro ⟨hhere, h⟩
    refine ⟨h.occurs, fun j hj => ?_⟩
    cases j with
    | zero => exact hhere
    | succ j => exact h.first j (Nat.lt_of_succ_lt_succ hj)

/-- **A search finds the first place.** -/
theorem offset?_eq_some_iff : offset? needle s = some k ↔ FirstAt needle s k := by
  induction s generalizing k with
  | nil =>
    rw [offset?]
    cases k with
    | zero => simp [firstAt_zero]
    | succ k =>
      refine ⟨fun h => ?_, fun h => ?_⟩
      · split at h <;> cases h
      · exact absurd h.occurs (h.first 0 (Nat.succ_pos k))
  | cons c rest ih =>
    rw [offset?]
    by_cases hhere : needle <+: c :: rest
    · rw [if_pos (List.isPrefixOf_iff_prefix.mpr hhere)]
      cases k with
      | zero => exact iff_of_true rfl (firstAt_zero.mpr hhere)
      | succ k => exact iff_of_false (by simp) fun h => (firstAt_succ.mp h).1 hhere
    · rw [if_neg (by rwa [List.isPrefixOf_iff_prefix])]
      cases k with
      | zero => exact iff_of_false (by simp) fun h => hhere (firstAt_zero.mp h)
      | succ k =>
        rw [firstAt_succ, ← ih]
        simp [hhere]

theorem offset?_eq_none_iff : offset? needle s = none ↔ ¬needle <:+: s := by
  induction s with
  | nil =>
    rw [offset?, List.infix_nil]
    split <;> simp [*]
  | cons c rest ih =>
    rw [offset?, List.infix_cons_iff]
    by_cases hhere : needle <+: c :: rest
    · rw [if_pos (List.isPrefixOf_iff_prefix.mpr hhere)]
      simp [hhere]
    · rw [if_neg (by rwa [List.isPrefixOf_iff_prefix])]
      simp [hhere, ih]

/-- A text stands somewhere exactly where it has a first place. -/
theorem exists_firstAt_iff : (∃ k, FirstAt needle s k) ↔ needle <:+: s := by
  rw [← not_iff_not, ← offset?_eq_none_iff, Option.eq_none_iff_forall_ne_some, not_exists]
  exact forall_congr' fun k => not_congr offset?_eq_some_iff.symm

end LintHost.Text
