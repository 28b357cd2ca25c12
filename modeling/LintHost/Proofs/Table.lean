/-
Tables of names.

A table is a list of pairs, in which a name stands for the first value beside it.  What is taken out
of a table, or changed in it, under one name leaves the other names as they are.
-/
import Mathlib.Tactic.SplitIfs

namespace LintHost.Table

variable {α β : Type}

theorem lookup_filter_ne (m n : String) (es : List (String × α)) :
    (es.filter fun e => e.1 != n).lookup m = if m = n then none else es.lookup m := by
  induction es with
  | nil => split_ifs <;> rfl
  | cons e rest ih =>
    obtain ⟨k, s⟩ := e
    rw [List.filter_cons]
    by_cases hk : k = n
    · rw [if_neg (by simp [hk]), ih, List.lookup_cons]
      by_cases hm : m = n
      · rw [if_pos hm, if_pos hm]
      · have hne : (m == k) = false := beq_eq_false_iff_ne.mpr (by rw [hk]; exact hm)
        rw [if_neg hm, if_neg hm, hne]
    · rw [if_pos (by simp [hk]), List.lookup_cons, List.lookup_cons, ih]
      by_cases hm : m = n
      · have hne : (m == k) = false := beq_eq_false_iff_ne.mpr (by rw [hm]; exact Ne.symm hk)
        rw [if_pos hm, if_pos hm, hne]
      · rw [if_neg hm, if_neg hm]

theorem lookup_map (g : String → α → β) (name : String) (es : List (String × α)) :
    (es.map fun e => (e.1, g e.1 e.2)).lookup name = (es.lookup name).map (g name) := by
  induction es with
  | nil => rfl
  | cons e rest ih =>
    obtain ⟨k, a⟩ := e
    rw [List.map_cons, List.lookup_cons, List.lookup_cons, ih]
    cases hk : name == k with
    | false => rfl
    | true =>
      obtain rfl := beq_iff_eq.mp hk
      rfl

theorem mem_of_lookup {es : List (String × α)} {name : String} {a : α}
    (h : es.lookup name = some a) : (name, a) ∈ es := by
  obtain ⟨front, rest, rfl, -⟩ := List.lookup_eq_some_iff.mp h
  simp

end LintHost.Table
