/-
Where the objects come from that the names of a module are bound to.

A module starts with names of its own and with what it imports.  Its members bind one name after the
other, to what they make or to what another name is bound to, and may take names away.  An object
that has a home was made by a member of the module, which also gave it the name that it is known by;
an object from elsewhere has none: `Script.bindings_traced`, by what a single member keeps.

The home is the name that the module had when the object was made.  A module that leaves its name
alone has that name at the end, and then all that its members have made is at home in it:
`Script.bindings_steady`.
-/
import LintHost.Plugin.Binding
import LintHost.Proofs.Outcome
import LintHost.Proofs.Table

namespace LintHost.Plugin

open LintHost.Outcome
open LintHost.Table

/-- Importing may raise anything; what it gives is of one sort. -/
abbrev Gives {α : Type} (P : α → Prop) (x : Except Raised α) : Prop := Ends P (fun _ => True) x

theorem Gives.of_ok {α : Type} {P : α → Prop} {x : Except Raised α} {a : α} (h : Gives P x)
    (hx : x = .ok a) : P a :=
  (ends_iff.mp h).1 a hx

theorem gives_any {α : Type} (x : Except Raised α) : Gives (fun _ => True) x :=
  ends_iff.mpr ⟨fun _ _ => trivial, fun _ _ => trivial⟩

/-! ### Bindings as a table -/

/-- Every name is bound once. -/
def Bindings.Distinct (bs : Bindings) : Prop := (bs.map Prod.fst).Nodup

theorem Bindings.Distinct.without {bs : Bindings} (h : bs.Distinct) (name : String) :
    Distinct (bs.filter fun e => e.1 != name) :=
  List.Nodup.sublist (List.filter_sublist.map Prod.fst) h

theorem Bindings.Distinct.bindName {bs : Bindings} (h : bs.Distinct) (name : String) (b : Bound) :
    Distinct (Plugin.bindName name b bs) := by
  refine List.nodup_cons.mpr ⟨fun hmem => ?_, h.without name⟩
  obtain ⟨e, he, hname⟩ := List.mem_map.mp hmem
  have hne := (List.mem_filter.mp he).2
  rw [hname] at hne
  simp at hne

/-! ### What a member makes -/

/-- The mark that a member leaves on what it makes: the name that is given for it, or else the name
of the function. -/
inductive Member.Marks : Member → String → Behaviour → Prop
  | given {name mark : String} {b : Behaviour} {kind : MemberKind} (hmark : mark ≠ "")
      (hkind : kind = .function (.named mark) b ∨ kind = .lambda (.named mark) b ∨
        kind = .callableObject mark b) : Marks ⟨name, kind⟩ mark b
  | own {name : String} {marking : Marking} {b : Behaviour}
      (h : ∀ mark, marking = .named mark → mark = "") : Marks ⟨name, .function marking b⟩ name b
  /-- A function that is not bound to a name by itself has a name that says so. -/
  | nameless {name : String} {marking : Marking} {b : Behaviour}
      (h : ∀ mark, marking = .named mark → mark = "") :
      Marks ⟨name, .lambda marking b⟩ "<lambda>" b

/-- The class that a member defines: it has the name of the member, and its identifier where there
is one; all that the member leaves open is that of the class it stands below. -/
inductive Member.Defines : Member → AnalyzerClass → Prop
  | below {name : String} {base id : Option String} {isAbstract : Bool} {initRaise : Option Raised}
      {b : Behaviour} (parent : AnalyzerClass) :
      Defines ⟨name, .analyzerClass base id isAbstract initRaise b⟩
        (parent.derive name id isAbstract initRaise b)

/-- An object is as a member makes it. Nothing is asked of what cannot be an analyzer. -/
def Member.Makes (m : Member) : Object → Prop
  | .function f => ∀ mark, f.mark = some mark → m.Marks mark f.behaviour
  | .callable mark b => m.Marks mark b
  | .analyzerClass c => m.Defines c
  | _ => True

/-- Putting the mark to something comes to it, or to what is no analyzer. -/
theorem putMark_gives (bs : Bindings) (marking : Marking) (marked : Object) :
    Gives (fun o => o = marked ∨ o = .other) (putMark bs marking marked) := by
  refine (gives_any (resolveName bs markerName)).bind fun b _ => ?_
  split
  · exact Or.inl rfl
  · split
    · trivial
    · exact Or.inr rfl

/-- The mark of a function is the name that is given for it, or else its own. -/
theorem Marking.markFor_cases (marking : Marking) (name : String) :
    (∃ mark, marking = .named mark ∧ mark ≠ "" ∧ marking.markFor name = mark) ∨
      (∀ mark, marking = .named mark → mark = "") ∧ marking.markFor name = name := by
  cases marking with
  | named mark =>
    by_cases hempty : mark = ""
    · refine Or.inr ⟨fun other h => (Marking.named.inj h).symm.trans hempty, ?_⟩
      rw [markFor, if_pos (String.isEmpty_iff.mpr hempty)]
    · refine Or.inl ⟨mark, rfl, hempty, ?_⟩
      rw [markFor, if_neg (fun h => hempty (String.isEmpty_iff.mp h))]
  | bare => exact Or.inr ⟨fun _ h => (nomatch h), rfl⟩
  | called => exact Or.inr ⟨fun _ h => (nomatch h), rfl⟩

theorem marks_function (name : String) (marking : Marking) (b : Behaviour) :
    Member.Marks ⟨name, .function marking b⟩ (marking.markFor name) b := by
  rcases marking.markFor_cases name with ⟨mark, rfl, hmark, heq⟩ | ⟨hunnamed, heq⟩
  · rw [heq]
    exact .given hmark (Or.inl rfl)
  · rw [heq]
    exact .own hunnamed

theorem marks_lambda (name : String) (marking : Marking) (b : Behaviour) :
    Member.Marks ⟨name, .lambda marking b⟩ (marking.markFor "<lambda>") b := by
  rcases marking.markFor_cases "<lambda>" with ⟨mark, rfl, hmark, heq⟩ | ⟨hunnamed, heq⟩
  · rw [heq]
    exact .given hmark (Or.inr (Or.inl rfl))
  · rw [heq]
    exact .nameless hunnamed

/-- What a marked object is made to be by the member that marks it. -/
theorem makes_of_putMark {m : Member} {bs : Bindings} {marking : Marking} {marked : Object}
    (h : m.Makes marked) : Gives m.Makes (putMark bs marking marked) := by
  refine (putMark_gives bs marking marked).weaken (fun o ho => ?_) fun _ _ => trivial
  rcases ho with rfl | rfl
  · exact h
  · trivial

theorem makes_of_defineClass {name base : String} {given : Option String} {id : Option String}
    {isAbstract : Bool} {initRaise : Option Raised} {b : Behaviour} (bs : Bindings) :
    Gives (Member.Makes ⟨name, .analyzerClass given id isAbstract initRaise b⟩)
      (defineClass bs name base id isAbstract initRaise b) := by
  refine (gives_any (resolveName bs base)).bind fun below _ => ?_
  dsimp only
  split
  · exact Member.Defines.below _
  · trivial
  · trivial
  · trivial

/-! ### What is known of everything that is bound -/

/-- An object is one that no module makes. -/
def Object.IsForeign : Object → Prop
  | .analyzerBase | .marker | .findings | .severities | .ambient _ _ => True
  | _ => False

/-- A bound object comes from elsewhere, and has no home. -/
structure Bound.IsForeign (b : Bound) : Prop where
  object : b.object.IsForeign
  self : ∀ n, b.self ≠ .made n
  home : b.home = none

/-- Where an object comes from: one that has a home was made by a member of the module. -/
inductive Origin (members : List Member) (b : Bound) : Prop
  | elsewhere (hforeign : b.IsForeign)
  | made {n : Nat} {m : Member} {home : Identity} (hself : b.self = .made n)
      (hmember : members[n]? = some m) (hmakes : m.Makes b.object) (hhome : b.home = some home)

/-- Every name is bound once, to an object of which it is known where it comes from. -/
structure Traced (members : List Member) (bs : Bindings) : Prop where
  distinct : bs.Distinct
  origin : ∀ e ∈ bs, Origin members e.2

/-- The module still has the name that it started with, and no object has another home. -/
structure Steady (bs : Bindings) : Prop where
  name : ∃ b, bs.lookup ownName = some b ∧ b.self = .own ownName
  homes : ∀ e ∈ bs, ∀ home, e.2.home = some home → home = .own ownName

variable {members : List Member} {bs : Bindings}

theorem Traced.made (h : Traced members bs) {attr : String} {b : Bound} {home : Identity}
    (hmem : (attr, b) ∈ bs) (hhome : b.home = some home) :
    ∃ n m, b.self = .made n ∧ members[n]? = some m ∧ m.Makes b.object := by
  cases h.origin _ hmem with
  | elsewhere hforeign =>
    rw [hforeign.home] at hhome
    cases hhome
  | made hself hmember hmakes _ => exact ⟨_, _, hself, hmember, hmakes⟩

theorem Steady.home_of_made (h : Steady bs) (ht : Traced members bs) {attr : String}
    {b name : Bound} {n : Nat} (hname : bs.lookup ownName = some name) (hmem : (attr, b) ∈ bs)
    (hmade : b.self = .made n) : b.home = some name.self := by
  obtain ⟨own, hown, hself⟩ := h.name
  obtain rfl := Option.some.inj (hname.symm.trans hown)
  cases ht.origin _ hmem with
  | elsewhere hforeign => exact absurd hmade (hforeign.self n)
  | made _ _ _ hhome => rw [hhome, h.homes _ hmem _ hhome, hself]

theorem firstBindings_foreign : ∀ e ∈ firstBindings, e.2.IsForeign := by
  intro e he
  rcases List.mem_append.mp he with he | he
  · obtain ⟨⟨name, o⟩, hmem, rfl⟩ := List.mem_map.mp he
    refine ⟨?_, fun _ h => (nomatch h), rfl⟩
    simp only [List.mem_cons, List.not_mem_nil, or_false, Prod.mk.injEq] at hmem
    rcases hmem with ⟨-, rfl⟩ | ⟨-, rfl⟩ | ⟨-, rfl⟩ | ⟨-, rfl⟩ <;> trivial
  · obtain ⟨name, -, hbound⟩ := List.mem_filterMap.mp he
    obtain ⟨a, -, rfl⟩ := Option.map_eq_some_iff.mp hbound
    refine ⟨trivial, fun n h => ?_, rfl⟩
    simp only at h
    split_ifs at h
    cases h

theorem traced_firstBindings : Traced members firstBindings where
  distinct := by
    unfold Bindings.Distinct
    decide +kernel
  origin e he := .elsewhere (firstBindings_foreign e he)

theorem steady_firstBindings : Steady firstBindings where
  name := ⟨⟨.ambient ownName (.value "str() argument 'encoding' must be str, not tuple"),
    .own ownName, none⟩, rfl, rfl⟩
  homes e he home h := by
    rw [(firstBindings_foreign e he).home] at h
    cases h

/-- What a name stands for is what it is bound to, or comes from elsewhere. -/
theorem resolveName_gives {P : Bound → Prop} (h : ∀ e ∈ bs, P e.2)
    (helsewhere : ∀ b : Bound, b.IsForeign → P b) (name : String) :
    Gives P (resolveName bs name) := by
  unfold resolveName
  split
  · rename_i hbound
    exact h _ (mem_of_lookup hbound)
  · exact helsewhere _ ⟨trivial, fun _ h => (nomatch h), rfl⟩
  · trivial

/-! ### What a member keeps -/

/-- The home that a member gives to what it makes. -/
def MemberKind.homeIn (bs : Bindings) : MemberKind → Identity
  | .function _ _ | .lambda _ _ | .plainFunction _ => functionHome bs
  | _ => classHome bs

theorem forall_of_some {P : Bound → Prop} {b : Bound} (h : P b) : ∀ c, some b = some c → P c := by
  rintro c ⟨⟩
  exact h

/-- What a member binds its name to: what it makes, or what another name is bound to already. -/
theorem memberObject_gives {P : Bound → Prop} {i : Nat} {m : Member}
    (hmakes : ∀ o, m.Makes o → P ⟨o, .made i, some (m.kind.homeIn bs)⟩)
    (hbound : ∀ e ∈ bs, P e.2)
    (helsewhere : ∀ b : Bound, b.IsForeign → P b) :
    Gives (fun found => ∀ b, found = some b → P b) (memberObject bs i m.name m.kind) := by
  obtain ⟨name, kind⟩ := m
  -- all but an alias and a deletion put what they make under the number of the member
  have hgiven : ∀ {x : Except Raised Object}, Gives (Member.Makes ⟨name, kind⟩) x →
      Gives (fun found => ∀ b, found = some b → P b)
        (some <$> (fun o => (⟨o, .made i, some (kind.homeIn bs)⟩ : Bound)) <$> x) :=
    fun hx => (hx.map fun o ho => hmakes o ho).map fun _ => forall_of_some
  cases kind with
  | function marking b =>
    refine hgiven (makes_of_putMark ?_)
    rintro mark ⟨⟩
    exact marks_function name marking b
  | lambda marking b =>
    refine hgiven (makes_of_putMark ?_)
    rintro mark ⟨⟩
    exact marks_lambda name marking b
  | callableObject mark b =>
    refine hgiven (makes_of_putMark ?_)
    split_ifs with hempty
    · trivial
    · exact .given (fun h => hempty (String.isEmpty_iff.mpr h)) (Or.inr (Or.inr rfl))
  | inertObject mark => exact hgiven (makes_of_putMark trivial)
  | plainFunction b =>
    exact forall_of_some (hmakes (.function ⟨name, none, b⟩) fun mark hmark => (nomatch hmark))
  | analyzerClass base id isAbstract initRaise b => exact hgiven (makes_of_defineClass bs)
  | plainClass => exact forall_of_some (hmakes (.plainClass ⟨name, none, none⟩) trivial)
  | delete =>
    rw [memberObject]
    split_ifs
    · exact fun _ h => (nomatch h)
    · trivial
  -- an alias makes nothing, so it may bind what has another home or none
  | _ => exact (resolveName_gives hbound helsewhere _).map fun _ => forall_of_some

/-- A member binds its own name only, and to nothing new but what it makes. -/
theorem bindMember_gives {P : Bound → Prop} {i : Nat} {m : Member}
    (hmakes : ∀ o, m.Makes o → P ⟨o, .made i, some (m.kind.homeIn bs)⟩)
    (hbound : ∀ e ∈ bs, P e.2)
    (helsewhere : ∀ b : Bound, b.IsForeign → P b) :
    Gives (fun bs' => (bs.Distinct → bs'.Distinct) ∧
      (∀ other, other ≠ m.name → bs'.lookup other = bs.lookup other) ∧ ∀ e ∈ bs', P e.2)
      (bindMember bs i m) := by
  have hkept : ∀ e ∈ bs.filter (fun e => e.1 != m.name), P e.2 :=
    fun e he => hbound e (List.mem_filter.mp he).1
  refine (memberObject_gives hmakes hbound helsewhere).bind fun found hfound => ?_
  cases found with
  | some b =>
    refine ⟨fun h => h.bindName m.name b, fun other hother => ?_, fun e he => ?_⟩
    · rw [bindName, List.lookup_cons, beq_eq_false_iff_ne.mpr hother, lookup_filter_ne,
        if_neg hother]
    · rcases List.mem_cons.mp he with rfl | he
      · exact hfound b rfl
      · exact hkept e he
  | none =>
    refine ⟨fun h => h.without m.name, fun other hother => ?_, hkept⟩
    rw [lookup_filter_ne, if_neg hother]

theorem Traced.bindMember {i : Nat} {m : Member} (h : Traced members bs)
    (hm : members[i]? = some m) : Gives (Traced members) (Plugin.bindMember bs i m) := by
  have hgives := bindMember_gives (P := Origin members) (i := i)
    (fun o ho => .made rfl hm ho rfl) h.origin fun b => .elsewhere
  exact hgives.weaken (fun bs' hbs' => ⟨hbs'.1 h.distinct, hbs'.2.2⟩) fun _ _ => trivial

theorem Steady.homeIn (h : Steady bs) (kind : MemberKind) : kind.homeIn bs = .own ownName := by
  obtain ⟨b, hb, hself⟩ := h.name
  have hhome : ∀ nameless, Plugin.homeIn bs nameless = .own ownName := by
    intro nameless
    rw [Plugin.homeIn, hb, Option.map_some, Option.getD_some, hself]
  cases kind <;> exact hhome _

theorem Steady.bindMember {i : Nat} {m : Member} (h : Steady bs) (hm : m.name ≠ ownName) :
    Gives Steady (Plugin.bindMember bs i m) := by
  have hmakes : ∀ o, m.Makes o →
      ∀ home, some (m.kind.homeIn bs) = some home → home = .own ownName := by
    intro o _ home hhome
    rw [← Option.some.inj hhome]
    exact h.homeIn m.kind
  have hgives := bindMember_gives (P := fun b => ∀ home, b.home = some home → home = .own ownName)
    (i := i) hmakes h.homes fun b hforeign home hhome => by
      rw [hforeign.home] at hhome; cases hhome
  refine hgives.weaken (fun bs' hbs' => ?_) fun _ _ => trivial
  obtain ⟨-, hothers, hhomes⟩ := hbs'
  obtain ⟨b, hb, hself⟩ := h.name
  exact ⟨⟨b, (hothers ownName hm.symm).trans hb, hself⟩, hhomes⟩

/-! ### Whole modules -/

/-- What every member keeps holds of the bindings of a module. -/
theorem Script.bindings_give {P : Bindings → Prop} {script : Script} (hfirst : P firstBindings)
    (hstep : ∀ bs i m, script.members[i]? = some m → P bs → Gives P (bindMember bs i m))
    (fileName : String) : Gives P (script.bindings fileName) := by
  unfold Script.bindings
  split
  · trivial
  · have hpass : Gives P
        (script.members.zipIdx.foldlM (fun bs x => bindMember bs x.2 x.1) firstBindings) :=
      Ends.foldlM (fun bs x hx hbs => hstep bs x.2 x.1 (List.mem_zipIdx_iff_getElem?.mp hx) hbs)
        hfirst
    refine hpass.bind fun bs hbs => ?_
    split
    · trivial
    · exact hbs

/-- **Every name of a module is bound once, and what has a home was made by a member of it, with the
mark or the name that the member gives; what comes from elsewhere has no home.** -/
theorem Script.bindings_traced {script : Script} {fileName : String}
    (h : script.bindings fileName = .ok bs) : Traced script.members bs := by
  have hgives := Script.bindings_give (P := Traced script.members) traced_firstBindings
    (fun bs i m hm hbs => Traced.bindMember hbs hm) fileName
  exact hgives.of_ok h

/-- **A module of which no member binds its name, or takes it away, has it at the end, and all that
has a home is at home in it.** -/
theorem Script.bindings_steady {script : Script} {fileName : String}
    (h : script.bindings fileName = .ok bs) (hname : ∀ m ∈ script.members, m.name ≠ ownName) :
    Steady bs := by
  have hgives := Script.bindings_give steady_firstBindings
    (fun bs i m hm hbs => Steady.bindMember hbs (hname m (List.mem_of_getElem? hm))) fileName
  exact hgives.of_ok h

/-- **No name is bound by which a module would answer for itself.** -/
theorem Script.bindings_ordinary {script : Script} {fileName : String}
    (h : script.bindings fileName = .ok bs) : ∀ name ∈ hookNames, bs.lookup name = none := by
  have hstep : ∀ bs i m, script.members[i]? = some m →
      (∀ name ∈ hookNames, bs.lookup name = none) →
        Gives (fun bs' => ∀ name ∈ hookNames, bs'.lookup name = none) (bindMember bs i m) := by
    intro bs i m hm hbs
    have hordinary := script.ordinary m (List.mem_of_getElem? hm)
    refine Ends.weaken (bindMember_gives (P := fun _ => True) (fun _ _ => trivial)
      (fun _ _ => trivial) fun _ _ => trivial) (fun bs' hbs' name hname => ?_) fun _ _ => trivial
    rw [hbs'.2.1 name fun heq => hordinary (heq ▸ hname)]
    exact hbs name hname
  exact (Script.bindings_give (by decide +kernel) hstep fileName).of_ok h

end LintHost.Plugin
