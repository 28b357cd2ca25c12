/-
The attributes of a module, as they are gone through.

A module lists its names in any order, may list one more than once, and need not have a value for
each.  What is gathered has every attribute once and in the order of the names, `mem_members_iff`
and `members_pairwise`; and it can be had exactly when the module lists its names and answers for
each of them, `members_ok_iff`.
-/
import LintHost.Plugin.Module
import LintHost.Proofs.Outcome
import Mathlib.Data.List.Sort
import Mathlib.Data.String.Basic

namespace LintHost.Plugin

open LintHost.Outcome

/-! ### Gathering -/

section Gathering

variable {value : String → Except Escape (Option Attribute)} {seen names : List String}
  {ms : List (String × Attribute)}

/-- What is gathered are the attributes of the names that are not left out, each of them once. -/
theorem mem_gather_iff (h : gather value seen names = .ok ms) :
    (ms.map Prod.fst).Nodup ∧
      ∀ n a, (n, a) ∈ ms ↔ n ∈ names ∧ n ∉ seen ∧ value n = .ok (some a) := by
  induction names generalizing seen ms with
  | nil =>
    obtain rfl := Except.ok.inj h
    exact ⟨List.nodup_nil, by simp⟩
  | cons name rest ih =>
    rw [gather] at h
    obtain ⟨found, hfound, h⟩ := bind_eq_ok_iff.mp h
    cases found with
    | none =>
      obtain ⟨hnodup, hmem⟩ := ih h
      refine ⟨hnodup, fun n a => (hmem n a).trans ?_⟩
      have hother : value n = .ok (some a) → n ≠ name := by
        rintro hn rfl
        rw [hfound] at hn
        cases hn
      simp only [List.mem_cons]
      tauto
    | some b =>
      by_cases hseen : name ∈ seen
      · simp only [if_pos hseen] at h
        obtain ⟨hnodup, hmem⟩ := ih h
        refine ⟨hnodup, fun n a => (hmem n a).trans ?_⟩
        have hother : n ∉ seen → n ≠ name := fun hn heq => hn (heq ▸ hseen)
        simp only [List.mem_cons]
        tauto
      · simp only [if_neg hseen] at h
        obtain ⟨more, hmore, h⟩ := bind_eq_ok_iff.mp h
        obtain rfl := Except.ok.inj h
        obtain ⟨hnodup, hmem⟩ := ih hmore
        refine ⟨List.nodup_cons.mpr ⟨fun hin => ?_, hnodup⟩, fun n a => ?_⟩
        · obtain ⟨⟨n, a⟩, hpair, rfl⟩ := List.mem_map.mp hin
          exact ((hmem n a).mp hpair).2.1 List.mem_cons_self
        · rw [List.mem_cons, hmem n a, List.mem_cons, List.mem_cons, Prod.mk.injEq]
          by_cases heq : n = name
          · subst heq
            simp [hseen, hfound, eq_comm]
          · simp [heq]

theorem exists_gather (h : ∀ n ∈ names, ∃ found, value n = .ok found) (seen : List String) :
    ∃ ms, gather value seen names = .ok ms := by
  induction names generalizing seen with
  | nil => exact ⟨[], rfl⟩
  | cons name rest ih =>
    obtain ⟨found, hfound⟩ := h name (by simp)
    have hrest := ih fun n hn => h n (List.mem_cons_of_mem _ hn)
    rw [gather, hfound]
    cases found with
    | none => exact hrest seen
    | some a =>
      show ∃ ms, (if name ∈ seen then _ else _) = _
      split_ifs
      · exact hrest seen
      · obtain ⟨more, hmore⟩ := hrest (name :: seen)
        exact ⟨(name, a) :: more, by rw [hmore]; rfl⟩

theorem value_of_gather (h : gather value seen names = .ok ms) :
    ∀ n ∈ names, ∃ found, value n = .ok found := by
  induction names generalizing seen ms with
  | nil => simp
  | cons name rest ih =>
    rw [gather] at h
    obtain ⟨found, hfound, h⟩ := bind_eq_ok_iff.mp h
    refine List.forall_mem_cons.mpr ⟨⟨found, hfound⟩, ?_⟩
    cases found with
    | none => exact ih h
    | some a =>
      dsimp only at h
      split_ifs at h
      · exact ih h
      · obtain ⟨more, hmore, -⟩ := bind_eq_ok_iff.mp h
        exact ih hmore

end Gathering

/-! ### The order of the names -/

section Order

variable {α : Type}

/-- One attribute stands before another. -/
def Before (x y : String × α) : Prop := x.1 < y.1

instance : Std.Irrefl (@Before α) := ⟨fun x => lt_irrefl x.1⟩

instance : Std.Antisymm (@Before α) := ⟨fun _ _ h h' => absurd (lt_trans h h') (lt_irrefl _)⟩

/-- One attribute does not stand after another. -/
def NotAfter (x y : String × α) : Prop := x.1 ≤ y.1

instance : DecidableRel (@NotAfter α) := fun x y => inferInstanceAs (Decidable (x.1 ≤ y.1))

instance : Std.Total (@NotAfter α) := ⟨fun x y => le_total x.1 y.1⟩

instance : IsTrans (String × α) NotAfter := ⟨fun _ _ _ h h' => le_trans h h'⟩

variable {ms : List (String × Attribute)}

/-- Where every name is there once, no two stand at one place. -/
theorem before_of_notAfter (h : (ms.map Prod.fst).Nodup) {l : List (String × Attribute)}
    (hperm : l.Perm ms) (hordered : l.Pairwise NotAfter) : l.Pairwise Before := by
  have hdistinct : l.Pairwise fun x y => x.1 ≠ y.1 :=
    List.pairwise_map.mp ((hperm.map Prod.fst).nodup_iff.mpr h)
  exact (hordered.and hdistinct).imp fun h => lt_of_le_of_ne h.1 h.2

theorem inOrder_pairwise (h : (ms.map Prod.fst).Nodup) : (inOrder ms).Pairwise Before :=
  before_of_notAfter h (List.mergeSort_perm ms _) (List.pairwise_mergeSort' NotAfter ms)

/-- The order can be had by putting in one attribute after the other. -/
theorem inOrder_eq_insertionSort (h : (ms.map Prod.fst).Nodup) :
    inOrder ms = ms.insertionSort NotAfter := by
  have hperm := List.perm_insertionSort NotAfter ms
  refine (inOrder_pairwise h).eq_of_mem_iff
    (before_of_notAfter h hperm (List.pairwise_insertionSort NotAfter ms)) fun x => ?_
  rw [hperm.mem_iff, inOrder, List.mem_mergeSort]

end Order

/-! ### The attributes of a module -/

namespace Module

variable {m : Module} {ms : List (String × Attribute)}

/-- The module lists a name, or its bases add it. -/
def Names (m : Module) (attr : String) : Prop :=
  ∃ listed inherited, m.listed = .ok listed ∧ m.inherited = .ok inherited ∧
    attr ∈ listed ++ inherited

/-- The module names an attribute and has it. -/
def Has (m : Module) (attr : String) (a : Attribute) : Prop :=
  m.Names attr ∧ m.value attr = .ok (some a)

/-- The module lists its names, and answers when it is asked for any of them. -/
structure Listable (m : Module) : Prop where
  listed : ∃ listed, m.listed = .ok listed
  inherited : ∃ inherited, m.inherited = .ok inherited
  values : ∀ attr, m.Names attr → ∃ found, m.value attr = .ok found

theorem members_eq_ok_iff :
    m.members = .ok ms ↔ ∃ listed inherited gathered, m.listed = .ok listed ∧
      m.inherited = .ok inherited ∧ gather m.value [] (listed ++ inherited) = .ok gathered ∧
        ms = inOrder gathered := by
  simp only [members, bind_eq_ok_iff, map_eq_ok_iff, exists_and_left]

theorem names_iff {listed inherited : List String} (hlisted : m.listed = .ok listed)
    (hinherited : m.inherited = .ok inherited) (attr : String) :
    m.Names attr ↔ attr ∈ listed ++ inherited := by
  simp [Names, hlisted, hinherited]

/-- **What is gone through are the attributes that the module has.** -/
theorem mem_members_iff (h : m.members = .ok ms) (attr : String) (a : Attribute) :
    (attr, a) ∈ ms ↔ m.Has attr a := by
  obtain ⟨listed, inherited, gathered, hlisted, hinherited, hgathered, rfl⟩ :=
    members_eq_ok_iff.mp h
  rw [inOrder, List.mem_mergeSort, (mem_gather_iff hgathered).2, Has,
    names_iff hlisted hinherited]
  simp

/-- **They are gone through in the order of their names, and each of them once.** -/
theorem members_pairwise (h : m.members = .ok ms) : ms.Pairwise Before := by
  obtain ⟨listed, inherited, gathered, -, -, hgathered, rfl⟩ := members_eq_ok_iff.mp h
  exact inOrder_pairwise (mem_gather_iff hgathered).1

/-- **They can be gone through where the module lists its names and answers for each.** -/
theorem members_ok_iff : (∃ ms, m.members = .ok ms) ↔ m.Listable := by
  constructor
  · rintro ⟨ms, h⟩
    obtain ⟨listed, inherited, gathered, hlisted, hinherited, hgathered, -⟩ :=
      members_eq_ok_iff.mp h
    refine ⟨⟨listed, hlisted⟩, ⟨inherited, hinherited⟩, fun attr hattr => ?_⟩
    exact value_of_gather hgathered attr ((names_iff hlisted hinherited attr).mp hattr)
  · rintro ⟨⟨listed, hlisted⟩, ⟨inherited, hinherited⟩, hvalues⟩
    have hall : ∀ attr ∈ listed ++ inherited, ∃ found, m.value attr = .ok found :=
      fun attr hattr => hvalues attr ((names_iff hlisted hinherited attr).mpr hattr)
    obtain ⟨gathered, hgathered⟩ := exists_gather hall []
    exact ⟨_, members_eq_ok_iff.mpr
      ⟨listed, inherited, gathered, hlisted, hinherited, hgathered, rfl⟩⟩

end Module

end LintHost.Plugin
