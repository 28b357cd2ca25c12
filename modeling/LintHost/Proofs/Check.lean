/-
What checks that are put together report.

A check of several parts is accepted if all its parts are, and otherwise reports what they report,
one after the other.  That makes checks a lawful applicative functor, so a change to what is made
of the parts can be moved past them, and `map_eq_map_iff` says what it means that two checks are
the same up to such a change: both report the same, or both accept.

`within` is what is reported inside one field, with the way from there on.  Fields are checked side
by side, so what is reported inside a field is what its own check reports.

A number is checked for one thing after the other, and so it has at most one fault: `int_single`.
-/
import LintHost.Check
import Mathlib.Control.Basic
import Mathlib.Data.List.Forall2

namespace LintHost.Check

variable {α β : Type}

instance : LawfulApplicative Check where
  map_const := rfl
  id_map c := by cases c <;> rfl
  seqLeft_eq c d := by cases c <;> cases d <;> rfl
  seqRight_eq c d := by cases c <;> cases d <;> rfl
  pure_seq f c := by cases c <;> rfl
  map_pure _ _ := rfl
  seq_pure c a := by cases c <;> rfl
  comp_map f g c := by cases c <;> rfl
  seq_assoc c d e := by
    cases c with
    | ok a => cases d <;> cases e <;> rfl
    | bad ps =>
      cases d with
      | ok f => cases e <;> rfl
      | bad qs =>
        cases e with
        | ok g => rfl
        | bad rs => exact congrArg Check.bad (List.append_assoc rs qs ps).symm

/-! ### Accepting -/

theorem map_eq_ok_iff {f : α → β} {c : Check α} {b : β} :
    f <$> c = .ok b ↔ ∃ a, c = .ok a ∧ f a = b := by
  cases c with
  | ok a => exact ⟨fun h => ⟨a, rfl, Check.ok.inj h⟩, fun ⟨_, ha, hb⟩ => by cases ha; cases hb; rfl⟩
  | bad ps => exact ⟨fun h => (nomatch h), fun ⟨_, ha, _⟩ => (nomatch ha)⟩

theorem seq_eq_ok_iff {c : Check (α → β)} {d : Check α} {b : β} :
    c <*> d = .ok b ↔ ∃ f a, c = .ok f ∧ d = .ok a ∧ f a = b := by
  constructor
  · intro h
    cases c with
    | bad ps => cases d <;> cases h
    | ok f =>
      cases d with
      | bad qs => cases h
      | ok a => exact ⟨f, a, rfl, rfl, Check.ok.inj h⟩
  · rintro ⟨f, a, rfl, rfl, rfl⟩
    rfl

theorem under_eq_ok_iff {s : PathStep} {c : Check α} {a : α} :
    under s c = .ok a ↔ c = .ok a := by
  cases c with
  | ok _ => exact Iff.rfl
  | bad ps => exact ⟨fun h => (nomatch h), fun h => (nomatch h)⟩

theorem map_under (f : α → β) (s : PathStep) (c : Check α) :
    f <$> under s c = under s (f <$> c) := by
  cases c <;> rfl

/-- Two checks are the same up to a change of the values. -/
theorem map_eq_map_iff {γ : Type} {f : α → γ} {g : β → γ} {c : Check α} {d : Check β} :
    f <$> c = g <$> d ↔
      (∃ ps, c = .bad ps ∧ d = .bad ps) ∨ ∃ a b, c = .ok a ∧ d = .ok b ∧ f a = g b := by
  constructor
  · intro h
    cases c with
    | ok a =>
      cases d with
      | ok b => exact Or.inr ⟨a, b, rfl, rfl, Check.ok.inj h⟩
      | bad qs => cases h
    | bad ps =>
      cases d with
      | ok b => cases h
      | bad qs =>
        obtain rfl := Check.bad.inj h
        exact Or.inl ⟨ps, rfl, rfl⟩
  · rintro (⟨ps, rfl, rfl⟩ | ⟨a, b, rfl, rfl, hab⟩)
    · rfl
    · exact congrArg Check.ok hab

/-! ### Parts -/

theorem model_eq_ok_iff {check : List (Value × Value) → Check α} {v : Value} {a : α} :
    model check v = .ok a ↔ ∃ entries, v.view = .map entries ∧ check entries = .ok a := by
  rw [model]
  split
  · rename_i entries hview
    rw [hview]
    exact ⟨fun h => ⟨entries, rfl, h⟩, fun ⟨_, hsame, h⟩ => Value.map.inj hsame ▸ h⟩
  · rename_i hview
    exact ⟨fun h => (nomatch h), fun ⟨entries, hmap, _⟩ => absurd hmap (hview entries)⟩

theorem withDefault_eq_ok {name : String} {default a : α} {check : Value → Check α}
    {entries : List (Value × Value)} (h : withDefault name default check entries = .ok a) :
    a = default ∨ ∃ v, Value.lookupName name entries = some v ∧ check v = .ok a := by
  rw [withDefault, under_eq_ok_iff] at h
  split at h
  · rename_i v hv
    exact Or.inr ⟨v, hv, h⟩
  · exact Or.inl (Check.ok.inj h).symm

theorem nullable_eq_ok {check : Value → Check α} {v : Value} {o : Option α}
    (h : nullable check v = .ok o) : ∀ a ∈ o, check v = .ok a := by
  intro a ha
  rw [nullable.eq_def] at h
  split at h
  · rw [← Check.ok.inj h] at ha
    cases ha
  · obtain ⟨b, hb, rfl⟩ := map_eq_ok_iff.mp h
    rw [hb, Option.mem_some_iff.mp ha]

/-! ### Items -/

/-- Each item that is accepted stands where its value stands. -/
theorem getElem?_of_items {check : Value → Check α} {i j : Nat} {vs : List Value} {as : List α}
    {a : α} (h : items check i vs = .ok as) (ha : as[j]? = some a) :
    ∃ v, vs[j]? = some v ∧ check v = .ok a := by
  induction vs generalizing i j as with
  | nil =>
    cases h
    cases ha
  | cons v rest ih =>
    obtain ⟨_, more, hfront, hmore, rfl⟩ := seq_eq_ok_iff.mp h
    obtain ⟨first, hfirst, rfl⟩ := map_eq_ok_iff.mp hfront
    cases j with
    | zero =>
      obtain rfl := Option.some.inj ha
      exact ⟨v, rfl, under_eq_ok_iff.mp hfirst⟩
    | succ j => exact ih hmore ha

theorem tuple_eq_ok {check : Value → Check α} {v : Value} {as : List α}
    (h : tuple check v = .ok as) : ∃ vs, itemsOf? v = some vs ∧
      ∀ (j : Nat) (a : α), as[j]? = some a → ∃ u, vs[j]? = some u ∧ check u = .ok a := by
  rw [tuple] at h
  split at h
  · rename_i vs hvs
    exact ⟨vs, hvs, fun j a ha => getElem?_of_items h ha⟩
  · cases h

theorem map_items (f : α → β) (check : Value → Check α) (i : Nat) (vs : List Value) :
    List.map f <$> items check i vs = items (fun v => f <$> check v) i vs := by
  induction vs generalizing i with
  | nil => rfl
  | cons v rest ih =>
    rw [items, items, ← ih, map_seq, ← map_under, Functor.map_map, Functor.map_map, seq_map_assoc,
      Functor.map_map]
    rfl

theorem items_congr {check : Value → Check α} {i : Nat} {vs ws : List Value}
    (h : List.Forall₂ (fun v w => check v = check w) vs ws) :
    items check i vs = items check i ws := by
  induction h generalizing i with
  | nil => rfl
  | cons hhead _ ih => rw [items, items, hhead, ih]

/-! ### Reporting -/

/-- What is reported inside a field, with the way from there on. -/
def within (name : String) (c : Check α) : List Problem :=
  c.problems.filterMap fun p =>
    match p.path with
    | .field n :: rest => if n = name then some ⟨rest, p.fault⟩ else none
    | _ => none

theorem problems_map (f : α → β) (c : Check α) : (f <$> c).problems = c.problems := by
  cases c <;> rfl

theorem problems_seq (c : Check (α → β)) (d : Check α) :
    (c <*> d).problems = c.problems ++ d.problems := by
  cases c with
  | ok f => cases d <;> rfl
  | bad ps =>
    cases d with
    | ok a => exact (List.append_nil ps).symm
    | bad qs => rfl

theorem problems_under (s : PathStep) (c : Check α) :
    (under s c).problems = c.problems.map fun p => ⟨s :: p.path, p.fault⟩ := by
  cases c <;> rfl

@[simp] theorem within_map (name : String) (f : α → β) (c : Check α) :
    (f <$> c).within name = c.within name := by
  rw [within, problems_map, within]

@[simp] theorem within_seq (name : String) (c : Check (α → β)) (d : Check α) :
    (c <*> d).within name = c.within name ++ d.within name := by
  rw [within, problems_seq, List.filterMap_append, within, within]

@[simp] theorem within_under_self (name : String) (c : Check α) :
    (under (.field name) c).within name = c.problems := by
  rw [within, problems_under, List.filterMap_map]
  simp

theorem within_under_of_ne {name other : String} (h : other ≠ name) (c : Check α) :
    (under (.field other) c).within name = [] := by
  rw [within, problems_under, List.filterMap_map]
  simp [h]

/-! ### One fault at most -/

/-- A check that reports no more than one fault, and that one where it stands. -/
def Single (c : Check α) : Prop := (∃ a, c = .ok a) ∨ ∃ f, c = fault f

theorem single_ok (a : α) : Single (.ok a) := Or.inl ⟨a, rfl⟩

theorem single_fault (f : Fault) : Single (fault f : Check α) := Or.inr ⟨f, rfl⟩

theorem Single.map {c : Check α} (h : Single c) (f : α → β) : Single (map f c) := by
  rcases h with ⟨a, rfl⟩ | ⟨e, rfl⟩
  · exact single_ok (f a)
  · exact single_fault e

/-- Where it reports nothing, it accepts. -/
theorem Single.exists_ok {c : Check α} (h : Single c) (hnone : c.problems = []) :
    ∃ a, c = .ok a := by
  rcases h with h | ⟨f, rfl⟩
  · exact h
  · cases hnone

theorem single_str (v : Value) : Single (str v) := by
  unfold str
  split
  · exact single_ok _
  · split
    · exact single_ok _
    · exact single_fault _
  · exact single_fault _

theorem single_nullable {check : Value → Check α} (h : ∀ v, Single (check v)) (v : Value) :
    Single (nullable check v) := by
  unfold nullable
  split
  · exact single_ok _
  · exact (h _).map some

theorem single_plainNatural (s : List Char) : Single (plainNatural s) := by
  unfold plainNatural
  dsimp only
  split_ifs
  · exact single_ok _
  · exact single_fault _
  · exact single_fault _
  · exact single_ok _
  · exact single_fault _

theorem single_plainInteger (s : List Char) : Single (plainInteger s) := by
  unfold plainInteger
  split
  · exact (single_plainNatural _).map _
  · exact (single_plainNatural _).map _

theorem single_signedNumber (isNegative : Bool) (s : List Char) :
    Single (signedNumber isNegative s) := by
  unfold signedNumber
  split
  · exact single_fault _
  · split
    · exact single_fault _
    · exact single_plainInteger _

theorem single_intText (s : List Char) : Single (intText s) := by
  unfold intText
  split
  · exact single_signedNumber _ _
  · exact single_signedNumber _ _
  · exact single_signedNumber _ _

theorem single_wholeFloat (x : Binary64) : Single (wholeFloat x) := by
  unfold wholeFloat
  split
  · exact single_fault _
  · exact single_fault _
  · split
    · exact single_fault _
    · split_ifs
      · exact single_fault _
      · exact single_ok _

/-- Where nothing is reported inside a field, the field is accepted. -/
theorem Single.exists_ok_of_within {name : String} {c : Check α} (h : Single c)
    (hnone : (under (.field name) c).within name = []) :
    ∃ a, under (.field name) c = .ok a := by
  rw [within_under_self] at hnone
  obtain ⟨a, rfl⟩ := h.exists_ok hnone
  exact ⟨a, rfl⟩

theorem withDefault_exists_ok {name : String} {default : α} {check : Value → Check α}
    {entries : List (Value × Value)} (h : ∀ v, Single (check v))
    (hnone : (withDefault name default check entries).within name = []) :
    ∃ a, withDefault name default check entries = .ok a := by
  refine Single.exists_ok_of_within ?_ hnone
  split
  · exact h _
  · exact single_ok _

/-- Data is a whole number, or has one fault that keeps it from being one. -/
theorem int_single (v : Value) : Single (int v) := by
  unfold int
  split
  · exact single_ok _
  · exact single_ok _
  · exact single_wholeFloat _
  · exact single_wholeFloat _
  · unfold ofWhole
    split_ifs
    · exact single_fault _
    · exact single_intText _
  · split
    · exact single_intText _
    · exact single_fault _
  · exact single_fault _

end LintHost.Check
