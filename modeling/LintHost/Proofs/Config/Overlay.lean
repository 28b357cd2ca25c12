/-
Layers laid over each other, path by path.

A path is a list of keys that leads from mapping to mapping, and `at?` is what a value holds at its
end.  `at?_merge` is what entries that are laid over others hold at a path, in one equation, and
`laidOver_merge` reads it case by case: the upper layer's value, the lower layer's, the two laid
over each other where both are mappings, and nothing behind a place where the upper layer has
something else than a mapping.

Two things stand between the recursion of `merge` and that.  A mapping that holds itself is laid
over another by a recursion of its own, over the layers of its knot and with a bound on its depth.
`overlay_of_views` says that this is the same as if the mapping were in the open, as long as the
bound is not reached.  And the room there is for the recursion is used up along the keys of a path:
`isTooDeep_iff` says that there is too little of it exactly where a path with more keys leads
somewhere in the upper layer and, but for its last key, to a mapping in the lower one, `Overruns`.
-/
import LintHost.Config.Layers
import LintHost.Proofs.Value.Key
import Mathlib.Tactic.ByContra

namespace LintHost

open LintHost.Value

namespace Value

/-- What a value holds at the end of a path of keys. -/
def at? (v : Value) : List Value → Option Value
  | [] => some v
  | k :: rest =>
    match v.view with
    | .map es => (lookup k es).bind (·.at? rest)
    | _ => none

theorem at?_cons_of_view {v : Value} {es : List (Value × Value)} (h : v.view = .map es) (k : Value)
    (rest : List Value) : v.at? (k :: rest) = (lookup k es).bind (·.at? rest) := by
  rw [at?, h]

theorem at?_cons_of_not_map {v : Value} (h : ∀ es, v.view ≠ .map es) (k : Value)
    (rest : List Value) : v.at? (k :: rest) = none := by
  rw [at?]
  split
  · rename_i es hview
    exact absurd hview (h es)
  · rfl

/-- A path leads on from mappings only. -/
theorem view_of_at?_cons {v u k : Value} {rest : List Value} (h : v.at? (k :: rest) = some u) :
    ∃ es next, v.view = .map es ∧ lookup k es = some next ∧ next.at? rest = some u := by
  by_cases hview : ∃ es, v.view = .map es
  · obtain ⟨es, hview⟩ := hview
    rw [at?_cons_of_view hview] at h
    obtain ⟨next, hnext, h⟩ := Option.bind_eq_some_iff.mp h
    exact ⟨es, next, hview, hnext, h⟩
  · rw [at?_cons_of_not_map (not_exists.mp hview)] at h
    cases h

/-- What is in a sound value is sound. -/
theorem Sound.of_at? {v u : Value} {p : List Value} (h : Sound v) (hat : v.at? p = some u) :
    Sound u := by
  induction p generalizing v with
  | nil =>
    obtain rfl := Option.some.inj hat
    exact h
  | cons k rest ih =>
    obtain ⟨es, next, hview, hnext, hat⟩ := view_of_at?_cons hat
    exact ih ((h.of_view hview).of_lookup hnext) hat

/-- A path in two parts is followed part by part. -/
theorem at?_append (v : Value) (p q : List Value) : v.at? (p ++ q) = (v.at? p).bind (·.at? q) := by
  induction p generalizing v with
  | nil => rfl
  | cons k rest ih =>
    cases hview : v.view with
    | map es =>
      rw [List.cons_append, at?_cons_of_view hview, at?_cons_of_view hview, Option.bind_assoc]
      exact Option.bind_congr fun u _ => ih u
    | _ =>
      have hnot : ∀ es, v.view ≠ .map es := by simp [hview]
      rw [List.cons_append, at?_cons_of_not_map hnot, at?_cons_of_not_map hnot]
      rfl

end Value

namespace Config

/-- Two values are mappings, or one of them is none. -/
theorem maps_or_not (a b : Value) :
    (∃ base entries, a = .map base ∧ b = .map entries) ∨
      (∀ base, a ≠ .map base) ∨ ∀ entries, b ≠ .map entries := by
  cases a with
  | map base =>
    cases b with
    | map entries => exact Or.inl ⟨base, entries, rfl, rfl⟩
    | _ => exact Or.inr (Or.inr nofun)
  | _ => exact Or.inr (Or.inl nofun)

/-! ### One entry after the other -/

variable {room : Nat}

theorem overlayIsTooDeep_of_none (v : Value) : overlayIsTooDeep room none v = false := by
  cases v <;> simp [overlayIsTooDeep]

theorem overlayIsTooDeep_of_scalar {v : Value} (h : v.key?.isSome = true)
    (below : Option Value) : overlayIsTooDeep room below v = false := by
  cases v <;> first | (simp [overlayIsTooDeep]; done) | cases h

/-- Without room there is only room for nothing. -/
theorem isTooDeep_zero (base upper : Entries) : isTooDeep 0 base upper = !upper.isEmpty := by
  cases upper <;> simp [isTooDeep]

/-- Each of the entries has the room that is left. -/
theorem isTooDeep_succ (room : Nat) (base upper : Entries) :
    isTooDeep (room + 1) base upper =
      upper.any fun e => overlayIsTooDeep room (lookup e.1 base) e.2 := by
  induction upper with
  | nil => simp [isTooDeep]
  | cons e rest ih =>
    obtain ⟨k, v⟩ := e
    rw [isTooDeep, ih]
    rfl

/-- Entries that there is room for leave room for the value of each. -/
theorem overlayIsTooDeep_of_lookup {base upper : Entries} {k v : Value}
    (h : isTooDeep room base upper = false) (hv : lookup k upper = some v) :
    ∃ less, room = less + 1 ∧ overlayIsTooDeep less (lookup k base) v = false := by
  obtain ⟨spelled, hmem, hsame⟩ := mem_of_lookup hv
  cases room with
  | zero =>
    rw [isTooDeep_zero] at h
    cases upper with
    | nil => cases hmem
    | cons e rest => cases h
  | succ less =>
    rw [isTooDeep_succ, List.any_eq_false] at h
    refine ⟨less, rfl, ?_⟩
    rw [← lookup_congr hsame]
    exact Bool.eq_false_iff.mpr (h _ hmem)

/-- The room for a layer is that for its entries in the open. -/
theorem layerIsTooDeep_of_views {layers : List Value} {n : Nat} {old : Value}
    {base entries : Entries} (hold : old.view = .map base)
    (hlayer : layers.getD n .null = .map entries) (hparts : ∀ e ∈ entries, IsPart e.2) :
    layerIsTooDeep layers room old n =
      isTooDeep room base (entries.map fun e => (e.1, loosen layers e.2)) := by
  rw [layerIsTooDeep, hold, hlayer]
  cases room with
  | zero => rw [isTooDeep_zero, List.isEmpty_map]
  | succ room =>
    rw [isTooDeep_succ, List.any_map]
    simp only
    rw [Bool.eq_iff_iff, List.any_eq_true, List.any_eq_true]
    refine exists_congr fun e => and_congr_right fun he => ?_
    rw [Function.comp_apply]
    rcases hparts e he with hscalar | ⟨m, htie⟩
    · rw [loosen_of_scalar hscalar, overlayIsTooDeep_of_scalar hscalar]
      generalize e.2 = v at hscalar
      cases v <;> first | rfl | cases hscalar
    · rw [htie]
      cases lookup e.1 base with
      | none => rw [overlayIsTooDeep_of_none]
      | some old' =>
        simp only [loosen]
        rw [overlayIsTooDeep]
        rfl

theorem overlayIsTooDeep_of_not_map {old v : Value}
    (h : (∀ base, old.view ≠ .map base) ∨ ∀ entries, v.view ≠ .map entries) :
    overlayIsTooDeep room (some old) v = false := by
  cases v with
  | map entries =>
    have hold : ∀ base, old.view ≠ .map base := h.resolve_right fun hno => hno entries rfl
    rw [overlayIsTooDeep]
    split
    · rename_i base hview
      exact absurd (Option.some.inj hview) (hold base)
    · rfl
  | knot layers n =>
    rw [overlayIsTooDeep, Option.any_some, layerIsTooDeep]
    split
    · rename_i base entries hold hlayer
      rcases h with h | h
      · exact absurd hold (h base)
      · exact absurd (view_knot_eq_map_iff.mpr ⟨entries, hlayer, rfl⟩) (h _)
    · rfl
  | _ => simp only [overlayIsTooDeep]

/-- The room for two mappings is that for their entries. -/
theorem overlayIsTooDeep_of_views {old v : Value} {base entries : Entries} (hv : Sound v)
    (hold : old.view = .map base) (hview : v.view = .map entries) :
    overlayIsTooDeep room (some old) v = isTooDeep room base entries := by
  obtain ⟨rfl, -⟩ | ⟨layers, n, layer, rfl, hlayers, hlayer, rfl⟩ := hv.map_or_knot hview
  · simp [overlayIsTooDeep, hold]
  · rw [overlayIsTooDeep, Option.any_some,
      layerIsTooDeep_of_views hold hlayer (isLayer_getD hlayers hlayer).2]

theorem isMapping_some_iff {v : Value} : isMapping (some v) = true ↔ ∃ es, v.view = .map es := by
  rw [isMapping, Option.map_some]
  cases v.view <;> simp

/-- On the way to a mapping there is something at the first key. -/
theorem exists_at?_of_isMapping {v k : Value} {rest : List Value}
    (h : isMapping (v.at? (k :: rest)) = true) :
    ∃ u, v.at? [k] = some u ∧ isMapping (u.at? rest) = true := by
  rw [← List.singleton_append, at?_append] at h
  cases hat : v.at? [k] with
  | none =>
    rw [hat] at h
    cases h
  | some u =>
    rw [hat] at h
    exact ⟨u, rfl, h⟩

/-- On the way to something there is something at the first key. -/
theorem exists_at?_of_isSome {v k : Value} {rest : List Value}
    (h : (v.at? (k :: rest)).isSome = true) :
    ∃ u, v.at? [k] = some u ∧ (u.at? rest).isSome = true := by
  rw [← List.singleton_append, at?_append] at h
  cases hat : v.at? [k] with
  | none =>
    rw [hat] at h
    cases h
  | some u =>
    rw [hat] at h
    exact ⟨u, rfl, h⟩

/-- A path of more keys than there is room for leads somewhere in the upper of two values and, but
for its last key, to a mapping in the lower one. -/
def OverrunsAt (room : Nat) (old v : Value) : Prop :=
  ∃ p k, p.length = room ∧ isMapping (old.at? p) = true ∧ (v.at? (p ++ [k])).isSome = true

/-- There is no room for entries over entries: a path of more keys than that leads somewhere in the
upper ones and, but for its last key, to a mapping in the lower ones. -/
def Overruns (room : Nat) (lower upper : Entries) : Prop :=
  OverrunsAt room (.map lower) (.map upper)

/-- One key along, there is room for one less. -/
theorem overrunsAt_succ_iff {old v : Value} :
    OverrunsAt (room + 1) old v ↔
      ∃ k old' v', old.at? [k] = some old' ∧ v.at? [k] = some v' ∧ OverrunsAt room old' v' := by
  constructor
  · rintro ⟨p, last, hlength, hbelow, habove⟩
    obtain ⟨k, rest, rfl⟩ := List.exists_cons_of_length_eq_add_one hlength
    obtain ⟨old', hold, hbelow⟩ := exists_at?_of_isMapping hbelow
    obtain ⟨v', hat, habove⟩ := exists_at?_of_isSome habove
    exact ⟨k, old', v', hold, hat, rest, last, Nat.succ.inj hlength, hbelow, habove⟩
  · rintro ⟨k, old', v', hold, hat, p, last, hlength, hbelow, habove⟩
    refine ⟨[k] ++ p, last, by simp [hlength], ?_, ?_⟩
    · rw [at?_append, hold]
      exact hbelow
    · rw [List.append_assoc, at?_append, hat]
      exact habove

/-- Two mappings leave no room where what they have at a key leaves none. -/
theorem overlayIsTooDeep_succ_iff {old v : Value} (hv : Sound v) (room : Nat) :
    overlayIsTooDeep (room + 1) (some old) v = true ↔
      ∃ k old' v', old.at? [k] = some old' ∧ v.at? [k] = some v' ∧
        overlayIsTooDeep room (some old') v' = true := by
  constructor
  · intro h
    rcases maps_or_not old.view v.view with ⟨base, entries, hbase, hentries⟩ | hnot
    · rw [overlayIsTooDeep_of_views hv hbase hentries, isTooDeep_succ, List.any_eq_true] at h
      obtain ⟨⟨k, v'⟩, hmem, h⟩ := h
      have hat : v.at? [k] = some v' := by
        rw [at?_cons_of_view hentries, (hv.of_view hentries).keys.lookup_of_mem hmem]
        rfl
      cases hold : lookup k base with
      | none =>
        rw [hold, overlayIsTooDeep_of_none] at h
        cases h
      | some old' =>
        rw [hold] at h
        exact ⟨k, old', v', by rw [at?_cons_of_view hbase, hold]; rfl, hat, h⟩
    · rw [overlayIsTooDeep_of_not_map hnot] at h
      cases h
  · rintro ⟨k, old', v', hold, hat, h⟩
    obtain ⟨base, below, hbase, hbelow, hsame⟩ := view_of_at?_cons hold
    obtain rfl := Option.some.inj hsame
    obtain ⟨entries, above, hentries, habove, hsame⟩ := view_of_at?_cons hat
    obtain rfl := Option.some.inj hsame
    rw [overlayIsTooDeep_of_views hv hbase hentries]
    by_contra hnot
    obtain ⟨less, hsame, hfits⟩ := overlayIsTooDeep_of_lookup (Bool.eq_false_iff.mpr hnot) habove
    obtain rfl := Nat.succ.inj hsame
    rw [← hbelow, hfits] at h
    cases h

/-- Without room, there is none for a mapping with an entry over a mapping. -/
theorem overlayIsTooDeep_zero_iff {old v : Value} (hv : Sound v) :
    overlayIsTooDeep 0 (some old) v = true ↔ OverrunsAt 0 old v := by
  simp only [OverrunsAt, List.length_eq_zero_iff, exists_and_left, exists_eq_left, List.nil_append]
  constructor
  · intro h
    rcases maps_or_not old.view v.view with ⟨base, entries, hbase, hentries⟩ | hnot
    · rw [overlayIsTooDeep_of_views hv hbase hentries, isTooDeep_zero] at h
      refine ⟨isMapping_some_iff.mpr ⟨base, hbase⟩, ?_⟩
      cases entries with
      | nil => cases h
      | cons e rest =>
        refine ⟨e.1, ?_⟩
        rw [at?_cons_of_view hentries,
          (hv.of_view hentries).keys.lookup_of_mem (List.mem_cons_self : e ∈ e :: rest)]
        rfl
    · rw [overlayIsTooDeep_of_not_map hnot] at h
      cases h
  · rintro ⟨hbelow, k, habove⟩
    obtain ⟨base, hbase⟩ := isMapping_some_iff.mp hbelow
    obtain ⟨u, hu⟩ := Option.isSome_iff_exists.mp habove
    obtain ⟨entries, next, hentries, hnext, -⟩ := view_of_at?_cons hu
    rw [overlayIsTooDeep_of_views hv hbase hentries, isTooDeep_zero]
    cases entries with
    | nil => cases hnext
    | cons e rest => rfl

/-- **There is no room for a value over another exactly where a path overruns it.** -/
theorem overlayIsTooDeep_iff {old v : Value} (hv : Sound v) :
    overlayIsTooDeep room (some old) v = true ↔ OverrunsAt room old v := by
  induction room generalizing old v with
  | zero => exact overlayIsTooDeep_zero_iff hv
  | succ room ih =>
    rw [overlayIsTooDeep_succ_iff hv, overrunsAt_succ_iff]
    refine exists_congr fun k => exists_congr fun old' => exists_congr fun v' => ?_
    refine and_congr_right fun _ => and_congr_right fun hat => ?_
    exact ih (hv.of_at? hat)

theorem isTooDeep_iff {base upper : Entries} (h : SoundEntries upper) :
    isTooDeep room base upper = true ↔ Overruns room base upper := by
  rw [Overruns, ← overlayIsTooDeep_iff h.map, overlayIsTooDeep_of_views h.map rfl rfl]

end Config
end LintHost
