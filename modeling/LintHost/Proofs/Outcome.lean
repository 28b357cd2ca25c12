/-
Operations over a list that stop at the first failure.

Preparing units, settling slots and choosing among the names in a directory all go through a list
and give up at the first item that fails.  Two facts say all there is to say of such an operation:
`mapM_eq_ok_iff`, it succeeds exactly when every item does, and gives their results in order; and
`mapM_eq_error_iff`, it fails exactly with the failure of the first item that fails.

Results in order are results that go with the items one by one, `List.Forall₂`; where what an
operation goes through goes itself with another list, `forall₂_comp` leads from one to the other.

Less is known of most operations than what they give: `Ends` says of what sort the results of an
operation are and of what sort its failures, and goes through operations that are put together.
-/
import Mathlib.Data.List.Forall2

namespace LintHost.Outcome

variable {α β ε : Type}

theorem bind_eq_ok_iff {x : Except ε α} {f : α → Except ε β} {y : β} :
    (x >>= f) = .ok y ↔ ∃ a, x = .ok a ∧ f a = .ok y := by
  cases x with
  | error e => simp [bind, Except.bind]
  | ok a => simp [bind, Except.bind]

theorem bind_eq_error_iff {x : Except ε α} {f : α → Except ε β} {e : ε} :
    (x >>= f) = .error e ↔ x = .error e ∨ ∃ a, x = .ok a ∧ f a = .error e := by
  cases x with
  | error d => simp [bind, Except.bind]
  | ok a => simp [bind, Except.bind]

theorem map_eq_ok_iff {x : Except ε α} {f : α → β} {y : β} :
    f <$> x = .ok y ↔ ∃ a, x = .ok a ∧ y = f a := by
  cases x with
  | error e => simp [Functor.map, Except.map]
  | ok a => simp [Functor.map, Except.map, eq_comm]

theorem map_eq_error_iff {x : Except ε α} {f : α → β} {e : ε} :
    f <$> x = .error e ↔ x = .error e := by
  cases x with
  | error d => simp [Functor.map, Except.map]
  | ok a => simp [Functor.map, Except.map]

theorem mapError_eq_error_iff {δ : Type} {x : Except ε α} {f : ε → δ} {d : δ} :
    x.mapError f = .error d ↔ ∃ e, x = .error e ∧ d = f e := by
  cases x with
  | error e => simp [Except.mapError, eq_comm]
  | ok a => simp [Except.mapError]

/-- A result is what is taken out of the operation, whatever stands in for it. -/
theorem eq_ok_of_isOk {x : Except ε α} (h : x.isOk = true) (y : α) :
    x = .ok (x.toOption.getD y) := by
  cases x with
  | ok a => rfl
  | error e => cases h

theorem mapM_cons_eq_ok {f : α → Except ε β} {x : α} {xs : List α} {ys : List β} :
    (x :: xs).mapM f = .ok ys ↔ ∃ y rest, f x = .ok y ∧ xs.mapM f = .ok rest ∧ ys = y :: rest := by
  rw [List.mapM_cons]
  cases hx : f x with
  | error e => simp [bind, Except.bind]
  | ok y =>
    cases hrest : xs.mapM f with
    | error e => simp [bind, Except.bind]
    | ok rest => simp [bind, Except.bind, pure, Except.pure, eq_comm]

theorem mapM_cons_eq_error {f : α → Except ε β} {x : α} {xs : List α} {e : ε} :
    (x :: xs).mapM f = .error e ↔ f x = .error e ∨ ((∃ y, f x = .ok y) ∧ xs.mapM f = .error e) := by
  rw [List.mapM_cons]
  cases hx : f x with
  | error e => simp [bind, Except.bind]
  | ok y =>
    cases hrest : xs.mapM f with
    | error e => simp [bind, Except.bind]
    | ok rest => simp [bind, Except.bind, pure, Except.pure]

/-! ### Lists that go together -/

/-- Two lists that go with a third, item by item, go with each other. -/
theorem forall₂_comp {γ : Type} {R : α → β → Prop} {S : β → γ → Prop} {T : α → γ → Prop}
    (h : ∀ x y z, R x y → S y z → T x z) {xs : List α} {ys : List β} {zs : List γ}
    (hxy : List.Forall₂ R xs ys) (hyz : List.Forall₂ S ys zs) : List.Forall₂ T xs zs := by
  induction hxy generalizing zs with
  | nil =>
    cases hyz
    exact .nil
  | cons hhead _ ih =>
    obtain ⟨z, rest, hz, hrest, rfl⟩ := List.forall₂_cons_left_iff.mp hyz
    exact .cons (h _ _ _ hhead hz) (ih hrest)

/-- Items that are made from one list in two ways go together. -/
theorem forall₂_map {γ : Type} {R : β → γ → Prop} {f : α → β} {g : α → γ} {xs : List α}
    (h : ∀ x ∈ xs, R (f x) (g x)) : List.Forall₂ R (xs.map f) (xs.map g) := by
  rw [List.forall₂_map_left_iff, List.forall₂_map_right_iff, List.forall₂_same]
  exact h

theorem forall₂_left_mem {R : α → β → Prop} {xs : List α} {ys : List β}
    (h : List.Forall₂ R xs ys) {x : α} (hx : x ∈ xs) : ∃ y ∈ ys, R x y := by
  induction h with
  | nil => cases hx
  | cons hhead _ ih =>
    rcases List.mem_cons.mp hx with rfl | hx
    · exact ⟨_, by simp, hhead⟩
    · obtain ⟨y, hy, hxy⟩ := ih hx
      exact ⟨y, by simp [hy], hxy⟩

theorem forall₂_right_mem {R : α → β → Prop} {xs : List α} {ys : List β}
    (h : List.Forall₂ R xs ys) {y : β} (hy : y ∈ ys) : ∃ x ∈ xs, R x y :=
  forall₂_left_mem h.flip hy

/-! ### Whole operations -/

/-- An operation over a list succeeds with the results of its items, and only then. -/
theorem mapM_eq_ok_iff {f : α → Except ε β} {xs : List α} {ys : List β} :
    xs.mapM f = .ok ys ↔ List.Forall₂ (fun x y => f x = .ok y) xs ys := by
  induction xs generalizing ys with
  | nil =>
    rw [List.mapM_nil, List.forall₂_nil_left_iff]
    exact ⟨fun h => (Except.ok.inj h).symm, fun h => by rw [h]; rfl⟩
  | cons x xs ih =>
    rw [mapM_cons_eq_ok, List.forall₂_cons_left_iff]
    constructor
    · rintro ⟨y, rest, hx, hrest, rfl⟩
      exact ⟨y, rest, hx, ih.mp hrest, rfl⟩
    · rintro ⟨y, rest, hx, hrest, rfl⟩
      exact ⟨y, rest, hx, ih.mpr hrest, rfl⟩

/-- An operation over a list fails with the failure of the first item that fails, and only then. -/
theorem mapM_eq_error_iff {f : α → Except ε β} {xs : List α} {e : ε} :
    xs.mapM f = .error e ↔
      ∃ before x after, xs = before ++ x :: after ∧ (∀ v ∈ before, ∃ y, f v = .ok y) ∧
        f x = .error e := by
  induction xs with
  | nil =>
    rw [List.mapM_nil]
    constructor
    · intro h; cases h
    · rintro ⟨before, x, after, h, -⟩
      simp at h
  | cons x xs ih =>
    rw [mapM_cons_eq_error]
    constructor
    · rintro (hx | ⟨hx, hrest⟩)
      · exact ⟨[], x, xs, rfl, by simp, hx⟩
      · obtain ⟨before, v, after, rfl, hbefore, hv⟩ := ih.mp hrest
        refine ⟨x :: before, v, after, rfl, ?_, hv⟩
        intro u hu
        rcases List.mem_cons.mp hu with rfl | hu
        · exact hx
        · exact hbefore u hu
    · rintro ⟨before, v, after, hxs, hbefore, hv⟩
      cases before with
      | nil =>
        obtain ⟨rfl, -⟩ := List.cons.inj hxs
        exact Or.inl hv
      | cons u before =>
        obtain ⟨rfl, hrest⟩ := List.cons.inj hxs
        refine Or.inr ⟨hbefore x (by simp), ih.mpr ⟨before, v, after, hrest, ?_, hv⟩⟩
        exact fun w hw => hbefore w (by simp [hw])

theorem mapM_congr {f g : α → Except ε β} {xs : List α} (h : ∀ x ∈ xs, f x = g x) :
    xs.mapM f = xs.mapM g := by
  induction xs with
  | nil => rfl
  | cons x xs ih =>
    rw [List.mapM_cons, List.mapM_cons, h x (by simp), ih fun y hy => h y (by simp [hy])]

/-- Items that succeed have no say in how an operation fails. -/
theorem mapM_filter_eq_error_iff {f : α → Except ε β} {keep : α → Bool} {xs : List α} {e : ε}
    (h : ∀ x ∈ xs, keep x = false → ∃ y, f x = .ok y) :
    (xs.filter keep).mapM f = .error e ↔ xs.mapM f = .error e := by
  induction xs with
  | nil => rfl
  | cons x xs ih =>
    have hrest := ih fun y hy => h y (by simp [hy])
    rw [mapM_cons_eq_error]
    cases hkeep : keep x with
    | true => rw [List.filter_cons_of_pos hkeep, mapM_cons_eq_error, hrest]
    | false =>
      obtain ⟨y, hy⟩ := h x (by simp) hkeep
      rw [List.filter_cons_of_neg (by simp [hkeep]), hrest, hy]
      simp

/-- Choosing items fails only where the test of an item does. -/
theorem filterAuxM_eq_error {f : α → Except ε Bool} {xs acc : List α} {e : ε}
    (h : xs.filterAuxM f acc = .error e) : ∃ x ∈ xs, f x = .error e := by
  induction xs generalizing acc with
  | nil => cases h
  | cons x xs ih =>
    rw [List.filterAuxM] at h
    cases hx : f x with
    | error d =>
      rw [hx] at h
      exact ⟨x, by simp, by rw [hx, Except.error.inj h]⟩
    | ok b =>
      rw [hx] at h
      obtain ⟨y, hy, hfy⟩ := ih h
      exact ⟨y, by simp [hy], hfy⟩

theorem filterM_eq_error {f : α → Except ε Bool} {xs : List α} {e : ε}
    (h : xs.filterM f = .error e) : ∃ x ∈ xs, f x = .error e := by
  cases haux : xs.filterAuxM f [] with
  | error d =>
    rw [List.filterM, haux] at h
    rw [← Except.error.inj h]
    exact filterAuxM_eq_error haux
  | ok ys =>
    rw [List.filterM, haux] at h
    cases h

/-- Whether a test came to a yes. -/
def isTrue : Except ε Bool → Bool
  | .ok b => b
  | .error _ => false

theorem isTrue_iff {x : Except ε Bool} : isTrue x = true ↔ x = .ok true := by
  cases x with
  | error e => simp [isTrue]
  | ok b => simp [isTrue]

theorem filterAuxM_eq_ok_iff {f : α → Except ε Bool} {xs acc ys : List α} :
    xs.filterAuxM f acc = .ok ys ↔
      (∀ x ∈ xs, ∃ b, f x = .ok b) ∧ ys = (xs.filter fun x => isTrue (f x)).reverse ++ acc := by
  induction xs generalizing acc with
  | nil =>
    rw [List.filterAuxM]
    exact ⟨fun h => ⟨by simp, (Except.ok.inj h).symm⟩, fun h => by rw [h.2]; rfl⟩
  | cons x xs ih =>
    rw [List.filterAuxM, List.forall_mem_cons, List.filter_cons]
    cases hx : f x with
    | error e =>
      constructor
      · intro h
        cases h
      · rintro ⟨⟨⟨b, hb⟩, -⟩, -⟩
        cases hb
    | ok b =>
      show xs.filterAuxM f _ = _ ↔ _
      rw [ih]
      cases b <;> simp [isTrue]

/-- Choosing items succeeds where every test does, and gives the items whose test came to a yes. -/
theorem filterM_eq_ok_iff {f : α → Except ε Bool} {xs ys : List α} :
    xs.filterM f = .ok ys ↔
      (∀ x ∈ xs, ∃ b, f x = .ok b) ∧ ys = xs.filter fun x => isTrue (f x) := by
  have hpass : ∀ zs : List α, xs.filterAuxM f [] = .ok zs ↔
      (∀ x ∈ xs, ∃ b, f x = .ok b) ∧ zs = (xs.filter fun x => isTrue (f x)).reverse := by
    intro zs
    rw [filterAuxM_eq_ok_iff, List.append_nil]
  rw [List.filterM, bind_eq_ok_iff]
  constructor
  · rintro ⟨zs, hzs, hys⟩
    obtain ⟨hall, rfl⟩ := (hpass zs).mp hzs
    rw [List.reverse_reverse] at hys
    exact ⟨hall, (Except.ok.inj hys).symm⟩
  · rintro ⟨hall, rfl⟩
    refine ⟨_, (hpass _).mpr ⟨hall, rfl⟩, ?_⟩
    rw [List.reverse_reverse]
    rfl

/-! ### How an operation ends -/

/-- An operation ends with a result of one sort or with a failure of another. -/
def Ends (P : α → Prop) (Q : ε → Prop) : Except ε α → Prop
  | .ok x => P x
  | .error e => Q e

/-- Whatever an operation fails with is of a sort. -/
def FailsWith (Q : ε → Prop) (x : Except ε α) : Prop := Ends (fun _ => True) Q x

variable {P : α → Prop} {P' : β → Prop} {Q Q' : ε → Prop}

theorem ends_iff {x : Except ε α} :
    Ends P Q x ↔ (∀ a, x = .ok a → P a) ∧ ∀ e, x = .error e → Q e := by
  cases x with
  | ok a => simp [Ends]
  | error e => simp [Ends]

theorem failsWith_iff {x : Except ε α} : FailsWith Q x ↔ ∀ e, x = .error e → Q e := by
  rw [FailsWith, ends_iff]
  simp

namespace Ends

theorem weaken {x : Except ε α} {P' : α → Prop} (h : Ends P Q x) (hP : ∀ a, P a → P' a)
    (hQ : ∀ e, Q e → Q' e) : Ends P' Q' x := by
  cases x with
  | ok a => exact hP a h
  | error e => exact hQ e h

/-- One operation after another: the second may rely on what the first is known to give. -/
theorem bind {x : Except ε α} {f : α → Except ε β} (h : Ends P Q x)
    (hf : ∀ a, P a → Ends P' Q (f a)) : Ends P' Q (x >>= f) := by
  cases x with
  | ok a => exact hf a h
  | error e => exact h

theorem map {x : Except ε α} {f : α → β} (h : Ends P Q x) (hf : ∀ a, P a → P' (f a)) :
    Ends P' Q (f <$> x) := by
  cases x with
  | ok a => exact hf a h
  | error e => exact h

/-- What every step of a pass keeps is kept by the whole pass. -/
theorem foldlM {f : β → α → Except ε β} {xs : List α} {y : β}
    (h : ∀ b, ∀ x ∈ xs, P' b → Ends P' Q (f b x)) (hy : P' y) : Ends P' Q (xs.foldlM f y) := by
  induction xs generalizing y with
  | nil => exact hy
  | cons x xs ih =>
    rw [List.foldlM_cons]
    refine (h y x (by simp) hy).bind fun b hb => ?_
    exact ih (fun b z hz => h b z (by simp [hz])) hb

end Ends

namespace FailsWith

theorem ok (a : α) : FailsWith Q (.ok a : Except ε α) := trivial

theorem weaken {x : Except ε α} (h : FailsWith Q x) (hQ : ∀ e, Q e → Q' e) : FailsWith Q' x :=
  Ends.weaken h (fun _ _ => trivial) hQ

theorem bind {x : Except ε α} {f : α → Except ε β} (h : FailsWith Q x)
    (hf : ∀ a, FailsWith Q (f a)) : FailsWith Q (x >>= f) :=
  Ends.bind h fun a _ => hf a

theorem map {x : Except ε α} (h : FailsWith Q x) (f : α → β) : FailsWith Q (f <$> x) :=
  Ends.map h fun _ _ => trivial

theorem mapError {δ : Type} {x : Except δ α} {g : δ → ε} (h : ∀ d, Q (g d)) :
    FailsWith Q (x.mapError g) := by
  cases x with
  | ok a => trivial
  | error d => exact h d

theorem mapM {f : α → Except ε β} {xs : List α} (h : ∀ x ∈ xs, FailsWith Q (f x)) :
    FailsWith Q (xs.mapM f) := by
  rw [failsWith_iff]
  intro e he
  obtain ⟨before, x, after, rfl, -, hx⟩ := mapM_eq_error_iff.mp he
  exact failsWith_iff.mp (h x (by simp)) e hx

theorem filterM {f : α → Except ε Bool} {xs : List α} (h : ∀ x ∈ xs, FailsWith Q (f x)) :
    FailsWith Q (xs.filterM f) := by
  rw [failsWith_iff]
  intro e he
  obtain ⟨x, hx, hfails⟩ := filterM_eq_error he
  exact failsWith_iff.mp (h x hx) e hfails

end FailsWith

end LintHost.Outcome
