/-
What the loader finds in a module.

The loader asks a module about the attributes it has.  What the module owns of a sort can be put in
a list, `Lists`: one item for each attribute, in the order of the attributes.  An `Inventory` has
such a list of the marked callables, of the concrete classes of analyzers, of those that make an
instance and of those that fail to; it is `Exact` when the lists are, and there is one exact
inventory of a module.

The module has to answer whatever it is asked, `Module.Answers`.  Going through a module ends well
exactly where it does, `discover_ok_iff`, and then it finds the exact inventory and notes the
classes that fail, `discover_of_answers`.  Both come from what a single attribute adds,
`Module.find_eq`.
-/
import LintHost.Plugin.Discovery
import LintHost.Proofs.Plugin.Members

namespace LintHost.Plugin

open LintHost.Outcome

/-! ### Sorts of objects -/

/-- A marked callable: its mark, and what it does. -/
structure Marked where
  mark : String
  analyze : Analyze

/-- A class of which an instance can be made, and what the instance does. -/
structure MadeClass where
  cls : ClassView
  analyze : Analyze

/-- A class of which no instance can be made, and what is said of it. -/
structure FailedClass where
  cls : ClassView
  text : String

/-- An object can be called and has a mark. -/
def View.HasMark (v : View) (x : Marked) : Prop := v = .object (some x.analyze) (some x.mark)

/-- An object is a class of analyzers that leaves nothing open. -/
def View.IsConcrete (v : View) (c : ClassView) : Prop :=
  v = .cls c ∧ c.isAnalyzer = true ∧ c.isAbstract = false

/-- An instance is made, and can be asked what it does. -/
def MadeClass.Works (x : MadeClass) : Prop := x.cls.make = .ok (.ok x.analyze)

/-- Making an instance raises what can be told. -/
def FailedClass.Fails (x : FailedClass) : Prop :=
  ∃ raised kind, x.cls.make = .error raised ∧ raised.told = .ok (kind, x.text)

/-- Whatever comes of making an instance can be asked about. -/
def ClassView.Answers (c : ClassView) : Prop :=
  (∃ analyze, MadeClass.Works ⟨c, analyze⟩) ∨ ∃ text, FailedClass.Fails ⟨c, text⟩

/-! ### What a module owns -/

namespace Module

variable {m : Module} {attr : String} {a : Attribute} {v : View}

/-- The object of an attribute that is at home in the module. -/
def Shows (m : Module) (a : Attribute) (v : View) : Prop :=
  ∃ home, a.home = .ok home ∧ m.name = .ok home ∧ a.view = .ok v

/-- The module has an object at an attribute, and has made it under the name that it has now. -/
def Owns (m : Module) (attr : String) (v : View) : Prop := ∃ a, m.Has attr a ∧ m.Shows a v

/-- The module answers whatever the loader asks it: it lists its names, and has values for them or
none; what it has tells its home, and the module its name; what it owns tells what it is, and a
concrete class what becomes of an instance. -/
structure Answers (m : Module) : Prop extends m.Listable where
  homes : ∀ attr a, m.Has attr a → (∃ home, a.home = .ok home) ∧ ∃ name, m.name = .ok name
  views : ∀ attr a home, m.Has attr a → a.home = .ok home → m.name = .ok home →
    ∃ v, a.view = .ok v
  classes : ∀ attr v c, m.Owns attr v → v.IsConcrete c → c.Answers

end Module

/-! ### Lists of what is at the attributes -/

variable {α β : Type} {m : Module}

/-- All of a sort that a module owns, once for each attribute and in the order of the attributes. -/
structure Lists (m : Module) (P : View → α → Prop) (found : List (String × α)) : Prop where
  ordered : found.Pairwise Before
  mem_iff : ∀ attr x, (attr, x) ∈ found ↔ ∃ v, m.Owns attr v ∧ P v x

/-- There is one such list. -/
theorem Lists.unique {P : View → α → Prop} {l l' : List (String × α)} (h : Lists m P l)
    (h' : Lists m P l') : l = l' :=
  h.ordered.eq_of_mem_iff h'.ordered fun x => (h.mem_iff x.1 x.2).trans (h'.mem_iff x.1 x.2).symm

/-- What is of a sort in a list. -/
def pick (f : α → Option β) (l : List (String × α)) : List (String × β) :=
  l.filterMap fun e => (f e.2).map fun x => (e.1, x)

theorem Lists.pick {P : View → α → Prop} {Q : View → β → Prop} {l : List (String × α)}
    (h : Lists m P l) {f : α → Option β} (hf : ∀ attr v x, m.Owns attr v →
      (Q v x ↔ ∃ i, P v i ∧ f i = some x)) : Lists m Q (pick f l) where
  ordered := by
    refine h.ordered.filterMap _ fun e e' hlt x hx x' hx' => ?_
    obtain ⟨-, -, rfl⟩ := Option.map_eq_some_iff.mp hx
    obtain ⟨-, -, rfl⟩ := Option.map_eq_some_iff.mp hx'
    exact hlt
  mem_iff attr x := by
    simp only [Plugin.pick, List.mem_filterMap, Option.map_eq_some_iff]
    constructor
    · rintro ⟨⟨attr', i⟩, hmem, y, hy, hpair⟩
      obtain ⟨rfl, rfl⟩ := Prod.mk.inj hpair
      obtain ⟨v, hv, hi⟩ := (h.mem_iff _ _).mp hmem
      exact ⟨v, hv, (hf _ v _ hv).mpr ⟨i, hi, hy⟩⟩
    · rintro ⟨v, hv, hx⟩
      obtain ⟨i, hi, hfi⟩ := (hf attr v x hv).mp hx
      exact ⟨(attr, i), (h.mem_iff attr i).mpr ⟨v, hv, hi⟩, x, hfi, rfl⟩

/-! ### Inventories -/

/-- What a module has to offer, and what fails in it, each with its attribute. -/
structure Inventory where
  marked : List (String × Marked)
  classes : List (String × ClassView)
  /-- The classes that make an instance, and those that fail to. -/
  made : List (String × MadeClass)
  failed : List (String × FailedClass)

namespace Inventory

/-- The entry points: those of the marked callables before those of the classes. -/
def entryPoints (i : Inventory) (stem : String) : List EntryPoint :=
  (i.marked.map fun x => ⟨stem ++ "." ++ x.2.mark, x.2.analyze⟩) ++
    i.made.map fun x => ⟨x.2.cls.entryName stem, x.2.analyze⟩

def warnings (i : Inventory) (stem shown : String) : List String :=
  i.failed.map fun x => creationWarning (x.2.cls.entryName stem) shown x.2.text

/-- What the loader finds of an inventory. -/
def found (i : Inventory) (stem shown : String) : Found where
  marked := i.marked.map fun x => ⟨stem ++ "." ++ x.2.mark, x.2.analyze⟩
  made := i.made.map fun x => ⟨x.2.cls.entryName stem, x.2.analyze⟩
  warnings := i.warnings stem shown

def notes (i : Inventory) (stem : String) : List Event :=
  i.failed.map fun x => .analyzerInitFailed (x.2.cls.entryName stem) x.2.text

/-- Every list holds what it is to hold and nothing else. -/
structure Exact (i : Inventory) (m : Module) : Prop where
  marked : Lists m View.HasMark i.marked
  classes : Lists m View.IsConcrete i.classes
  made : Lists m (fun v x => v.IsConcrete x.cls ∧ x.Works) i.made
  failed : Lists m (fun v x => v.IsConcrete x.cls ∧ x.Fails) i.failed
  /-- Each class makes an instance or fails. -/
  balanced : i.made.length + i.failed.length = i.classes.length

end Inventory

/-- There is one inventory that is exact. -/
theorem Inventory.Exact.unique {i j : Inventory} (hi : i.Exact m) (hj : j.Exact m) : i = j := by
  cases i
  cases j
  congr
  · exact hi.marked.unique hj.marked
  · exact hi.classes.unique hj.classes
  · exact hi.made.unique hj.made
  · exact hi.failed.unique hj.failed

/-! ### What one attribute adds -/

/-- What an attribute adds to the inventory. -/
inductive Item where
  | marked (x : Marked)
  | made (x : MadeClass)
  | failed (x : FailedClass)

namespace Item

def marked? : Item → Option Marked
  | .marked x => some x
  | _ => none

def made? : Item → Option MadeClass
  | .made x => some x
  | _ => none

def failed? : Item → Option FailedClass
  | .failed x => some x
  | _ => none

def cls? : Item → Option ClassView
  | .marked _ => none
  | .made x => some x.cls
  | .failed x => some x.cls

/-- What is noted of an item. -/
def notes (stem : String) : Item → List Event
  | .failed x => [.analyzerInitFailed (x.cls.entryName stem) x.text]
  | _ => []

/-- An item put to what is found. -/
def addTo (stem shown : String) (f : Found) : Item → Found
  | .marked x => f.addMarked ⟨stem ++ "." ++ x.mark, x.analyze⟩
  | .made x => f.addMade ⟨x.cls.entryName stem, x.analyze⟩
  | .failed x => f.addWarning (creationWarning (x.cls.entryName stem) shown x.text)

end Item

/-- What an object is in the inventory. -/
inductive View.Is (v : View) : Item → Prop
  | marked {x : Marked} (h : v.HasMark x) : Is v (.marked x)
  | made {x : MadeClass} (hcls : v.IsConcrete x.cls) (h : x.Works) : Is v (.made x)
  | failed {x : FailedClass} (hcls : v.IsConcrete x.cls) (h : x.Fails) : Is v (.failed x)

/-- What becomes of an instance of a class. -/
def ClassView.item (c : ClassView) : Except Escape Item :=
  match c.make with
  | .ok analyze => (fun run => .made ⟨c, run⟩) <$> analyze
  | .error raised => (fun told => .failed ⟨c, told.2⟩) <$> raised.told

/-- What an object adds that tells what it is, if anything. -/
def View.item? : View → Except Escape (Option Item)
  | .cls c => if c.isAnalyzer && !c.isAbstract then some <$> c.item else .ok none
  | .object (some analyze) (some mark) => .ok (some (.marked ⟨mark, analyze⟩))
  | .object _ _ => .ok none

theorem ClassView.item_eq_ok_iff {c : ClassView} {i : Item} :
    c.item = .ok i ↔ (∃ run, MadeClass.Works ⟨c, run⟩ ∧ i = .made ⟨c, run⟩) ∨
      ∃ text, FailedClass.Fails ⟨c, text⟩ ∧ i = .failed ⟨c, text⟩ := by
  constructor
  · intro h
    unfold ClassView.item at h
    split at h
    · rename_i analyze hmake
      obtain ⟨run, rfl, rfl⟩ := map_eq_ok_iff.mp h
      exact Or.inl ⟨run, hmake, rfl⟩
    · rename_i raised hmake
      obtain ⟨told, htold, rfl⟩ := map_eq_ok_iff.mp h
      exact Or.inr ⟨told.2, ⟨raised, told.1, hmake, htold⟩, rfl⟩
  · rintro (⟨run, hmake, rfl⟩ | ⟨text, ⟨raised, kind, hmake, htold⟩, rfl⟩)
    · rw [ClassView.item, show c.make = _ from hmake]
      rfl
    · rw [ClassView.item, show c.make = _ from hmake]
      exact map_eq_ok_iff.mpr ⟨_, htold, rfl⟩

theorem ClassView.exists_item_iff {c : ClassView} : (∃ i, c.item = .ok i) ↔ c.Answers := by
  simp only [ClassView.item_eq_ok_iff, ClassView.Answers]
  constructor
  · rintro ⟨i, ⟨run, h, -⟩ | ⟨text, h, -⟩⟩
    · exact Or.inl ⟨run, h⟩
    · exact Or.inr ⟨text, h⟩
  · rintro (⟨run, h⟩ | ⟨text, h⟩)
    · exact ⟨_, Or.inl ⟨run, h, rfl⟩⟩
    · exact ⟨_, Or.inr ⟨text, h, rfl⟩⟩

namespace View

variable {v : View} {c : ClassView}

theorem item?_of_isConcrete (h : v.IsConcrete c) : v.item? = some <$> c.item := by
  obtain ⟨rfl, hanalyzer, habstract⟩ := h
  rw [item?, hanalyzer, habstract]
  rfl

theorem item?_eq_some_iff {i : Item} : v.item? = .ok (some i) ↔ v.Is i := by
  constructor
  · intro h
    unfold item? at h
    split at h
    · split_ifs at h with hconcrete
      · obtain ⟨j, hj, hsame⟩ := map_eq_ok_iff.mp h
        obtain rfl := Option.some.inj hsame
        rw [Bool.and_eq_true, Bool.not_eq_true'] at hconcrete
        rcases ClassView.item_eq_ok_iff.mp hj with ⟨run, hworks, rfl⟩ | ⟨text, hfails, rfl⟩
        · exact .made ⟨rfl, hconcrete⟩ hworks
        · exact .failed ⟨rfl, hconcrete⟩ hfails
      · cases Except.ok.inj h
    · obtain rfl := Option.some.inj (Except.ok.inj h)
      exact .marked rfl
    · cases Except.ok.inj h
  · rintro (h | ⟨hcls, h⟩ | ⟨hcls, h⟩)
    · rw [h, item?]
    · rw [item?_of_isConcrete hcls, map_eq_ok_iff]
      exact ⟨_, ClassView.item_eq_ok_iff.mpr (Or.inl ⟨_, h, rfl⟩), rfl⟩
    · rw [item?_of_isConcrete hcls, map_eq_ok_iff]
      exact ⟨_, ClassView.item_eq_ok_iff.mpr (Or.inr ⟨_, h, rfl⟩), rfl⟩

/-- An object can be listed or passed over unless it is a concrete class that does not answer. -/
theorem exists_item?_iff : (∃ i, v.item? = .ok i) ↔ ∀ c, v.IsConcrete c → c.Answers := by
  constructor
  · rintro ⟨i, hi⟩ c hc
    rw [item?_of_isConcrete hc] at hi
    obtain ⟨j, hj, -⟩ := map_eq_ok_iff.mp hi
    exact ClassView.exists_item_iff.mp ⟨j, hj⟩
  · intro h
    unfold item?
    split
    · rename_i c
      split_ifs with hconcrete
      · rw [Bool.and_eq_true, Bool.not_eq_true'] at hconcrete
        obtain ⟨i, hi⟩ := ClassView.exists_item_iff.mpr (h c ⟨rfl, hconcrete⟩)
        exact ⟨some i, by rw [hi]; rfl⟩
      · exact ⟨none, rfl⟩
    · exact ⟨_, rfl⟩
    · exact ⟨_, rfl⟩

end View

namespace Module

variable {a : Attribute} {v : View} {stem shown : String}

/-- What an attribute adds, if anything. -/
def item? (m : Module) (a : Attribute) : Except Escape (Option Item) := do
  match ← m.own? a with
  | some v => v.item?
  | none => .ok none

theorem own?_eq_some_iff : m.own? a = .ok (some v) ↔ m.Shows a v := by
  unfold own? Shows
  constructor
  · intro h
    obtain ⟨home, hhome, h⟩ := bind_eq_ok_iff.mp h
    obtain ⟨name, hname, h⟩ := bind_eq_ok_iff.mp h
    split_ifs at h with hown
    · obtain ⟨v, hv, hsame⟩ := map_eq_ok_iff.mp h
      obtain rfl := Option.some.inj hsame
      exact ⟨home, hhome, hown ▸ hname, hv⟩
    · cases Except.ok.inj h
  · rintro ⟨home, hhome, hname, hv⟩
    rw [hhome, hname, hv]
    show (if home = home then _ else _) = _
    rw [if_pos rfl]
    rfl

theorem exists_own?_iff :
    (∃ own, m.own? a = .ok own) ↔ (∃ home, a.home = .ok home) ∧ (∃ name, m.name = .ok name) ∧
      ∀ home, a.home = .ok home → m.name = .ok home → ∃ v, a.view = .ok v := by
  unfold own?
  constructor
  · rintro ⟨own, h⟩
    obtain ⟨home, hhome, h⟩ := bind_eq_ok_iff.mp h
    obtain ⟨name, hname, h⟩ := bind_eq_ok_iff.mp h
    refine ⟨⟨home, hhome⟩, ⟨name, hname⟩, fun home' hhome' hname' => ?_⟩
    obtain rfl := Except.ok.inj (hhome.symm.trans hhome')
    obtain rfl := Except.ok.inj (hname.symm.trans hname')
    rw [if_pos rfl] at h
    obtain ⟨v, hv, -⟩ := map_eq_ok_iff.mp h
    exact ⟨v, hv⟩
  · rintro ⟨⟨home, hhome⟩, ⟨name, hname⟩, hviews⟩
    rw [hhome, hname]
    by_cases hown : home = name
    · obtain ⟨v, hv⟩ := hviews home hhome (hown ▸ hname)
      exact ⟨some v, by rw [hv]; exact if_pos hown⟩
    · exact ⟨none, if_neg hown⟩

theorem item?_eq_some_iff {i : Item} :
    m.item? a = .ok (some i) ↔ ∃ v, m.Shows a v ∧ v.Is i := by
  unfold item?
  rw [bind_eq_ok_iff]
  constructor
  · rintro ⟨own, hown, h⟩
    cases own with
    | none => cases Except.ok.inj h
    | some v => exact ⟨v, own?_eq_some_iff.mp hown, View.item?_eq_some_iff.mp h⟩
  · rintro ⟨v, hv, hi⟩
    exact ⟨some v, own?_eq_some_iff.mpr hv, View.item?_eq_some_iff.mpr hi⟩

theorem exists_item?_iff :
    (∃ i, m.item? a = .ok i) ↔ (∃ own, m.own? a = .ok own) ∧
      ∀ v c, m.Shows a v → v.IsConcrete c → c.Answers := by
  unfold item?
  simp only [bind_eq_ok_iff]
  constructor
  · rintro ⟨i, own, hown, h⟩
    refine ⟨⟨own, hown⟩, fun v c hv hc => ?_⟩
    obtain rfl := Except.ok.inj (hown.symm.trans (own?_eq_some_iff.mpr hv))
    exact View.exists_item?_iff.mp ⟨i, h⟩ c hc
  · rintro ⟨⟨own, hown⟩, hclasses⟩
    cases own with
    | none => exact ⟨none, none, hown, rfl⟩
    | some v =>
      obtain ⟨i, hi⟩ := View.exists_item?_iff.mpr fun c => hclasses v c (own?_eq_some_iff.mp hown)
      exact ⟨i, some v, hown, hi⟩

theorem asked_of_ok {α : Type} {x : Except Escape α} {y : α} (h : x = .ok y) :
    Journal.asked x = pure y := by
  rw [h]
  rfl

/-- What looking at a class comes to: its item is added and noted, or something goes through. -/
theorem findClass_eq (c : ClassView) :
    findClass stem shown c = match View.item? (.cls c) with
      | .ok i => ⟨(i.map (Item.notes stem)).getD [],
          .ok fun f => (i.map (Item.addTo stem shown f)).getD f⟩
      | .error e => ⟨[], .error e.failure⟩ := by
  rw [findClass, View.item?]
  split_ifs
  · rw [ClassView.item]
    cases c.make with
    | ok analyze => cases analyze <;> rfl
    | error raised =>
      dsimp only
      cases raised.told <;> rfl
  · rfl

/-- What looking at an attribute comes to. -/
theorem find_eq :
    m.find stem shown a = match m.item? a with
      | .ok i => ⟨(i.map (Item.notes stem)).getD [],
          .ok fun f => (i.map (Item.addTo stem shown f)).getD f⟩
      | .error e => ⟨[], .error e.failure⟩ := by
  unfold find item?
  cases hown : m.own? a with
  | error e => rfl
  | ok own =>
    rw [asked_of_ok rfl, Journal.pure_bind]
    match own with
    | none => rfl
    | some (.cls c) => exact findClass_eq c
    | some (.object none mark) => cases mark <;> rfl
    | some (.object (some analyze) none) => rfl
    | some (.object (some analyze) (some mark)) => rfl

/-! ### What all attributes add -/

/-- What attributes add, each with its name. -/
def items (m : Module) : List (String × Attribute) → Except Escape (List (String × Item))
  | [] => .ok []
  | (attr, a) :: rest => do
    let item ← m.item? a
    let more ← m.items rest
    .ok ((item.map fun i => (attr, i)).toList ++ more)

variable {ms : List (String × Attribute)} {l : List (String × Item)}

theorem items_cons_eq_ok_iff {attr : String} {rest : List (String × Attribute)} :
    m.items ((attr, a) :: rest) = .ok l ↔ ∃ item more, m.item? a = .ok item ∧
      m.items rest = .ok more ∧ l = (item.map fun i => (attr, i)).toList ++ more := by
  simp only [items, bind_eq_ok_iff, exists_and_left, Except.ok.injEq]
  simp only [eq_comm]

theorem mem_items_iff (h : m.items ms = .ok l) (attr : String) (i : Item) :
    (attr, i) ∈ l ↔ ∃ a, (attr, a) ∈ ms ∧ m.item? a = .ok (some i) := by
  induction ms generalizing l with
  | nil =>
    obtain rfl := Except.ok.inj h
    simp
  | cons first rest ih =>
    obtain ⟨item, more, hitem, hmore, rfl⟩ := items_cons_eq_ok_iff.mp h
    rw [List.mem_append, ih hmore, Option.mem_toList, Option.map_eq_some_iff]
    constructor
    · rintro (⟨j, rfl, hpair⟩ | ⟨a, ha, hi⟩)
      · obtain ⟨rfl, rfl⟩ := Prod.mk.inj hpair
        exact ⟨first.2, List.mem_cons_self, hitem⟩
      · exact ⟨a, List.mem_cons_of_mem _ ha, hi⟩
    · rintro ⟨a, ha, hi⟩
      rcases List.mem_cons.mp ha with rfl | ha
      · exact Or.inl ⟨i, Except.ok.inj (hitem.symm.trans hi), rfl⟩
      · exact Or.inr ⟨a, ha, hi⟩

/-- No attribute changes its place. -/
theorem items_sublist (h : m.items ms = .ok l) :
    (l.map Prod.fst).Sublist (ms.map Prod.fst) := by
  induction ms generalizing l with
  | nil =>
    obtain rfl := Except.ok.inj h
    exact .slnil
  | cons first rest ih =>
    obtain ⟨item, more, -, hmore, rfl⟩ := items_cons_eq_ok_iff.mp h
    cases item with
    | none => exact (ih hmore).cons _
    | some i => exact (ih hmore).cons_cons _

theorem exists_items_iff :
    (∃ l, m.items ms = .ok l) ↔ ∀ attr a, (attr, a) ∈ ms → ∃ item, m.item? a = .ok item := by
  induction ms with
  | nil => exact ⟨fun _ _ _ h => absurd h List.not_mem_nil, fun _ => ⟨[], rfl⟩⟩
  | cons first rest ih =>
    constructor
    · rintro ⟨l, h⟩ attr a hmem
      obtain ⟨item, more, hitem, hmore, -⟩ := items_cons_eq_ok_iff.mp h
      rcases List.mem_cons.mp hmem with rfl | hmem
      · exact ⟨item, hitem⟩
      · exact ih.mp ⟨more, hmore⟩ attr a hmem
    · intro h
      obtain ⟨item, hitem⟩ := h first.1 first.2 List.mem_cons_self
      obtain ⟨more, hmore⟩ := ih.mpr fun attr a hmem => h attr a (List.mem_cons_of_mem _ hmem)
      exact ⟨_, items_cons_eq_ok_iff.mpr ⟨item, more, hitem, hmore, rfl⟩⟩

/-- The items of the attributes that a module has are those of what it owns. -/
theorem lists_items (hms : m.members = .ok ms) (h : m.items ms = .ok l) : Lists m View.Is l where
  ordered := by
    have hnames : (ms.map Prod.fst).Pairwise (· < ·) :=
      List.pairwise_map.mpr (members_pairwise hms)
    have hkept := hnames.sublist (items_sublist h)
    show l.Pairwise fun x y => x.1 < y.1
    exact List.pairwise_map.mp hkept
  mem_iff attr i := by
    rw [mem_items_iff h]
    constructor
    · rintro ⟨a, ha, hi⟩
      obtain ⟨v, hv, his⟩ := item?_eq_some_iff.mp hi
      exact ⟨v, ⟨a, (mem_members_iff hms attr a).mp ha, hv⟩, his⟩
    · rintro ⟨v, ⟨a, ha, hv⟩, his⟩
      exact ⟨a, (mem_members_iff hms attr a).mpr ha, item?_eq_some_iff.mpr ⟨v, hv, his⟩⟩

end Module

/-- The inventory of items. -/
def inventoryOf (l : List (String × Item)) : Inventory where
  marked := pick Item.marked? l
  classes := pick Item.cls? l
  made := pick Item.made? l
  failed := pick Item.failed? l

variable {l : List (String × Item)} {ms : List (String × Attribute)} {stem shown : String}

/-- Each class among the items makes an instance or fails. -/
theorem inventoryOf_balanced (l : List (String × Item)) :
    (inventoryOf l).made.length + (inventoryOf l).failed.length =
      (inventoryOf l).classes.length := by
  induction l with
  | nil => rfl
  | cons e rest ih =>
    obtain ⟨attr, i⟩ := e
    cases i with
    | marked x => exact ih
    | made x =>
      show (inventoryOf rest).made.length + 1 + (inventoryOf rest).failed.length =
        (inventoryOf rest).classes.length + 1
      omega
    | failed x =>
      show (inventoryOf rest).made.length + ((inventoryOf rest).failed.length + 1) =
        (inventoryOf rest).classes.length + 1
      omega

/-- **The inventory of all items of a module is exact.** -/
theorem inventoryOf_exact (hl : Lists m View.Is l)
    (h : ∀ attr v c, m.Owns attr v → v.IsConcrete c → c.Answers) : (inventoryOf l).Exact m where
  marked := by
    refine hl.pick fun attr v x _ => ⟨fun hx => ⟨_, .marked hx, rfl⟩, ?_⟩
    rintro ⟨i, hi, hx⟩
    cases hi <;> cases hx
    assumption
  classes := by
    refine hl.pick fun attr v c hv => ⟨fun hc => ?_, ?_⟩
    · rcases h attr v c hv hc with ⟨analyze, hworks⟩ | ⟨text, hfails⟩
      · exact ⟨_, .made hc hworks, rfl⟩
      · exact ⟨_, .failed hc hfails, rfl⟩
    · rintro ⟨i, hi, hx⟩
      cases hi <;> cases hx <;> assumption
  made := by
    refine hl.pick fun attr v x _ => ⟨fun hx => ⟨_, .made hx.1 hx.2, rfl⟩, ?_⟩
    rintro ⟨i, hi, hx⟩
    cases hi <;> cases hx
    exact ⟨‹_›, ‹_›⟩
  failed := by
    refine hl.pick fun attr v x _ => ⟨fun hx => ⟨_, .failed hx.1 hx.2, rfl⟩, ?_⟩
    rintro ⟨i, hi, hx⟩
    cases hi <;> cases hx
    exact ⟨‹_›, ‹_›⟩
  balanced := inventoryOf_balanced l

/-! ### Going through a module -/

theorem addTo_found (i : Item) (attr : String) :
    i.addTo stem shown ((inventoryOf l).found stem shown) =
      (inventoryOf ((attr, i) :: l)).found stem shown := by
  cases i <;> rfl

theorem notes_cons (i : Item) (attr : String) :
    (inventoryOf ((attr, i) :: l)).notes stem = i.notes stem ++ (inventoryOf l).notes stem := by
  cases i <;> rfl

/-- Going through attributes finds the inventory of what they add. -/
theorem findAll_of_items (h : m.items ms = .ok l) :
    m.findAll stem shown ms =
      ⟨(inventoryOf l).notes stem, .ok ((inventoryOf l).found stem shown)⟩ := by
  induction ms generalizing l with
  | nil =>
    obtain rfl := Except.ok.inj h
    rfl
  | cons first rest ih =>
    obtain ⟨item, more, hitem, hmore, rfl⟩ := Module.items_cons_eq_ok_iff.mp h
    rw [Module.findAll, Module.find_eq, hitem, Journal.bind_ok _ _ _ rfl, ih hmore,
      Journal.bind_ok _ _ _ rfl]
    cases item with
    | none => simp
    | some i =>
      simp only [Option.map_some, Option.getD_some, Option.toList_some, List.singleton_append,
        Journal.pure_events, List.append_nil, Journal.pure_outcome, addTo_found i first.1,
        notes_cons]

/-- It fails where one of them cannot be told. -/
theorem exists_items_of_findAll {found : Found}
    (h : (m.findAll stem shown ms).outcome = .ok found) : ∃ l, m.items ms = .ok l := by
  induction ms generalizing found with
  | nil => exact ⟨[], rfl⟩
  | cons first rest ih =>
    rw [Module.findAll, Journal.bind_outcome] at h
    obtain ⟨add, hadd, h⟩ := bind_eq_ok_iff.mp h
    rw [Journal.bind_outcome] at h
    obtain ⟨more, hmore, -⟩ := bind_eq_ok_iff.mp h
    obtain ⟨l, hl⟩ := ih hmore
    rw [Module.find_eq] at hadd
    cases hitem : m.item? first.2 with
    | error e =>
      rw [hitem] at hadd
      cases hadd
    | ok item => exact ⟨_, Module.items_cons_eq_ok_iff.mpr ⟨item, l, hitem, hl, rfl⟩⟩

namespace Module.Answers

/-- Every attribute of a module that answers adds something or nothing. -/
theorem exists_item (h : m.Answers) {attr : String} {a : Attribute} (ha : m.Has attr a) :
    ∃ item, m.item? a = .ok item := by
  refine exists_item?_iff.mpr ⟨exists_own?_iff.mpr ?_, fun v c hv => h.classes attr v c ⟨a, ha, hv⟩⟩
  obtain ⟨hhome, hname⟩ := h.homes attr a ha
  exact ⟨hhome, hname, fun home => h.views attr a home ha⟩

theorem exists_items (h : m.Answers) :
    ∃ ms l, m.members = .ok ms ∧ m.items ms = .ok l := by
  obtain ⟨ms, hms⟩ := members_ok_iff.mpr h.toListable
  obtain ⟨l, hl⟩ := exists_items_iff.mpr fun attr a ha =>
    h.exists_item ((mem_members_iff hms attr a).mp ha)
  exact ⟨ms, l, hms, hl⟩

end Module.Answers

theorem answers_of_items (hms : m.members = .ok ms) (hl : m.items ms = .ok l) : m.Answers := by
  have hitem : ∀ attr a, m.Has attr a → ∃ item, m.item? a = .ok item := fun attr a ha =>
    Module.exists_items_iff.mp ⟨l, hl⟩ attr a ((Module.mem_members_iff hms attr a).mpr ha)
  refine ⟨Module.members_ok_iff.mp ⟨ms, hms⟩, fun attr a ha => ?_, fun attr a home ha => ?_, ?_⟩
  · obtain ⟨hown, -⟩ := Module.exists_item?_iff.mp (hitem attr a ha)
    obtain ⟨hhome, hname, -⟩ := Module.exists_own?_iff.mp hown
    exact ⟨hhome, hname⟩
  · obtain ⟨hown, -⟩ := Module.exists_item?_iff.mp (hitem attr a ha)
    exact (Module.exists_own?_iff.mp hown).2.2 home
  · rintro attr v c ⟨a, ha, hv⟩ hc
    exact (Module.exists_item?_iff.mp (hitem attr a ha)).2 v c hv hc

/-- **Going through a module ends well exactly where the module answers.** -/
theorem discover_ok_iff :
    (∃ found, (discover m stem shown).outcome = .ok found) ↔ m.Answers := by
  unfold discover
  simp only [Journal.bind_outcome, bind_eq_ok_iff]
  constructor
  · rintro ⟨found, ms, hasked, hfound⟩
    cases hms : m.members with
    | error e =>
      rw [hms] at hasked
      cases hasked
    | ok ms' =>
      rw [hms] at hasked
      obtain rfl : ms' = ms := Except.ok.inj hasked
      obtain ⟨l, hl⟩ := exists_items_of_findAll hfound
      exact answers_of_items hms hl
  · intro h
    obtain ⟨ms, l, hms, hl⟩ := h.exists_items
    exact ⟨_, ms, by rw [hms]; rfl, by rw [findAll_of_items hl]⟩

/-- **What is found in a module that answers is its inventory.** -/
theorem discover_of_answers (h : m.Answers) : ∃ i : Inventory, i.Exact m ∧
    ∀ stem shown, discover m stem shown = ⟨i.notes stem, .ok (i.found stem shown)⟩ := by
  obtain ⟨ms, l, hms, hl⟩ := h.exists_items
  refine ⟨inventoryOf l, inventoryOf_exact (Module.lists_items hms hl) h.classes,
    fun stem shown => ?_⟩
  rw [discover, Module.asked_of_ok hms, Journal.pure_bind, findAll_of_items hl]

end LintHost.Plugin
