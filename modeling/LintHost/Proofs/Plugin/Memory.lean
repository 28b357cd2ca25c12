/-
What is in memory after any calls to loaders.

A module's name is in memory while the module is imported.  When the import has succeeded its loader
registers the name, and takes it out of memory again when it is released; when the import fails the
name is taken out at once.  An import that is interrupted does neither: its name stays in memory,
and no loader knows of it.  `strays` are these names.

`memory_of_loaders` says that there is nothing else: after any calls, the names in memory are the
registered ones and the strays, each of them one loader's or a stray and never both.  So the memory
agrees with what the loaders have registered exactly when no import was interrupted, and what is
left in it once all loaders are released is the strays.  An interrupt that comes later than the
import, while instances of the module's classes are made, leaves no stray.

What one load does to the state is one of four things, `LoadEnds`; each of them keeps the names in
order, `Owned`.
-/
import LintHost.Proofs.Plugin.History

namespace LintHost.Plugin

/-! ### One load -/

/-- Whether importing the file at a path under a name is interrupted. -/
def isCutOff (w : Workspace) (path name : String) : Bool :=
  match importFile w path name with
  | .error (.interrupt _) => true
  | _ => false

/-- The name that loading a path under the next number leaves in memory without a loader. -/
def strayOf (w : Workspace) (n : Nat) (path : String) : List String :=
  if w.isFileText path && isCutOff w path (nameFor n path) then [nameFor n path] else []

/-- What a load of a module of a name leaves: the names that no loader knows of, and the state. -/
inductive LoadEnds (s : LoadState) (name : String) : List String → LoadState → Prop
  | missing : LoadEnds s name [] s
  | failed : LoadEnds s name [] s.next
  | cutOff : LoadEnds s name [name] (s.next.remember name)
  | imported : LoadEnds s name [] ((s.next.remember name).register name)

/-- **What one load does to the state.** -/
theorem load_ends (w : Workspace) (s : LoadState) (path : String) :
    LoadEnds s (nameFor s.modules.counter path) (strayOf w s.modules.counter path)
      (load w s path).state := by
  cases hfile : w.isFileText path with
  | false =>
    rw [load_missing hfile, strayOf, hfile]
    exact .missing
  | true =>
    rw [load_of_file hfile, strayOf, hfile]
    unfold isCutOff
    cases importFile w path (nameFor s.modules.counter path) with
    | ok m => exact .imported
    | error raised =>
      cases raised with
      | interrupt kind => exact .cutOff
      | exception | speechless => exact .failed

/-! ### Names and their owners -/

variable {ι : Type} {h : Host ι} {left : List String}

/-- Every name in memory has a number that was given out, and is either registered by one of the
loaders, and by one only, or was left there by an import that was interrupted. -/
structure Owned (left : List String) (h : Host ι) : Prop where
  earlier : ∀ name ∈ h.modules.inMemory, ∃ n < h.modules.counter, ∃ stem, name = moduleName n stem
  distinct : h.modules.inMemory.Nodup
  mem_iff : ∀ name, name ∈ h.modules.inMemory ↔
    name ∈ left ∨ ∃ i, name ∈ (h.loaders i).registered
  inOrder : h.modules.inMemory.filter (fun name => decide (name ∈ left)) = left
  apart : ∀ i, ∀ name ∈ (h.loaders i).registered, name ∉ left
  owner : ∀ i j name, name ∈ (h.loaders i).registered → name ∈ (h.loaders j).registered → i = j

theorem owned_start (n : Nat) : Owned [] (Host.start ⟨n, []⟩ : Host ι) := by
  refine ⟨?_, List.nodup_nil, ?_, rfl, ?_, ?_⟩ <;> simp [Host.start]

namespace Owned

/-- A name under the next number is not in memory. -/
theorem new (ho : Owned left h) (stem : String) :
    moduleName h.modules.counter stem ∉ h.modules.inMemory := by
  intro hmem
  obtain ⟨n, hn, stem', hname⟩ := ho.earlier _ hmem
  exact absurd (moduleName_inj hname).symm (Nat.ne_of_lt hn)

theorem not_mem_registered {name : String} (ho : Owned left h)
    (hnew : name ∉ h.modules.inMemory) (i : ι) : name ∉ (h.loaders i).registered := fun hmem =>
  hnew ((ho.mem_iff name).mpr (Or.inr ⟨i, hmem⟩))

theorem not_mem_left {name : String} (ho : Owned left h) (hnew : name ∉ h.modules.inMemory) :
    name ∉ left := fun hmem =>
  hnew ((ho.mem_iff name).mpr (Or.inl hmem))

/-- What is in memory when no loader has registered anything. -/
theorem inMemory_eq (ho : Owned left h) (hnone : ∀ i, (h.loaders i).registered = []) :
    h.modules.inMemory = left := by
  rw [← ho.inOrder, eq_comm, List.filter_eq_self]
  intro name hname
  rcases (ho.mem_iff name).mp hname with hleft | ⟨i, hi⟩
  · exact decide_eq_true hleft
  · rw [hnone i] at hi
    cases hi

/-- The memory agrees with what is registered exactly when nothing was left in it. -/
theorem agrees_iff (ho : Owned left h) :
    (∀ name, name ∈ h.modules.inMemory ↔ ∃ i, name ∈ (h.loaders i).registered) ↔ left = [] := by
  constructor
  · intro hagree
    refine List.eq_nil_iff_forall_not_mem.mpr fun name hleft => ?_
    obtain ⟨i, hi⟩ := (hagree name).mp ((ho.mem_iff name).mpr (Or.inl hleft))
    exact ho.apart i name hi hleft
  · rintro rfl name
    rw [ho.mem_iff name]
    simp

end Owned

/-! ### Calls keep it -/

variable [DecidableEq ι]

/-- The names that loading several paths leaves in memory: those up to the first load that ends with
something else than a module or a report that there is none. -/
def straysOf (w : Workspace) : LoadState → List String → List String
  | _, [] => []
  | s, path :: rest =>
    strayOf w s.modules.counter path ++
      if goesOn (load w s path).journal.outcome then straysOf w (load w s path).state rest else []

/-- The names that a call leaves in memory without a loader. -/
def Call.strays (h : Host ι) : Call ι → List String
  | .load w _ path => strayOf w h.modules.counter path
  | .loadAll w i paths => straysOf w (h.view i) paths
  | .release _ => []

/-- The names that calls leave in memory, one after the other. -/
def strays (h : Host ι) : List (Call ι) → List String
  | [] => []
  | c :: rest => c.strays h ++ strays (c.run h) rest

theorem mem_put_registered {i j : ι} {s : LoadState} {name : String} :
    name ∈ ((h.put i s).loaders j).registered ↔
      if j = i then name ∈ s.loader.registered else name ∈ (h.loaders j).registered := by
  by_cases hij : j = i
  · simp [Host.put, hij]
  · simp [Host.put, hij]

namespace Owned

/-- A new name that comes into memory, with the loader that registers it or without one. -/
theorem named (ho : Owned left h) (i : ι) (stem : String) {s : LoadState} (imported : Bool)
    (hcounter : s.modules.counter = h.modules.counter + 1)
    (hmemory : s.modules.inMemory = h.modules.inMemory ++ [moduleName h.modules.counter stem])
    (hregistered : s.loader.registered = (h.loaders i).registered ++
      if imported then [moduleName h.modules.counter stem] else []) :
    Owned (left ++ if imported then [] else [moduleName h.modules.counter stem]) (h.put i s) := by
  have hnew := ho.new stem
  generalize hname : moduleName h.modules.counter stem = name at hmemory hregistered hnew ⊢
  have hput : (h.put i s).modules.inMemory = h.modules.inMemory ++ [name] := hmemory
  have hreg : ∀ j m, m ∈ ((h.put i s).loaders j).registered ↔
      m ∈ (h.loaders j).registered ∨ j = i ∧ imported = true ∧ m = name := by
    intro j m
    rw [mem_put_registered]
    by_cases hij : j = i
    · rw [if_pos hij, hregistered, hij]
      cases imported <;> simp
    · rw [if_neg hij]
      simp [hij]
  refine ⟨?_, ?_, fun m => ?_, ?_, fun j m hm => ?_, fun j k m hj hk => ?_⟩
  · intro m hm
    show ∃ n < s.modules.counter, _
    rw [hput] at hm
    rw [hcounter]
    rcases List.mem_append.mp hm with hm | hm
    · obtain ⟨n, hn, stem', rfl⟩ := ho.earlier m hm
      exact ⟨n, by omega, stem', rfl⟩
    · exact ⟨h.modules.counter, by omega, stem, (List.mem_singleton.mp hm).trans hname.symm⟩
  · rw [hput, List.nodup_append]
    refine ⟨ho.distinct, by simp, ?_⟩
    rintro m hm _ hm' rfl
    exact hnew (List.mem_singleton.mp hm' ▸ hm)
  · rw [hput, List.mem_append, ho.mem_iff m, List.mem_singleton]
    simp only [hreg]
    cases imported with
    | true => simp [or_assoc, exists_or]
    | false => simp [or_assoc, or_comm]
  · rw [hput, List.filter_append]
    cases imported with
    | true =>
      rw [if_pos rfl, List.append_nil, ho.inOrder]
      simp [ho.not_mem_left hnew]
    | false =>
      have hold : h.modules.inMemory.filter (fun m => decide (m ∈ left ++ [name])) = left := by
        conv_rhs => rw [← ho.inOrder]
        refine List.filter_congr fun m hm => ?_
        have hne : m ≠ name := fun hmn => hnew (hmn ▸ hm)
        simp [hne]
      rw [if_neg Bool.false_ne_true, hold]
      simp
  · rcases (hreg j m).mp hm with hm | ⟨-, himported, rfl⟩
    · have hold := ho.apart j m hm
      have hne : m ≠ name := fun hmn => ho.not_mem_registered hnew j (hmn ▸ hm)
      cases imported <;> simp [hold, hne]
    · rw [himported, if_pos rfl, List.append_nil]
      exact ho.not_mem_left hnew
  · rcases (hreg j m).mp hj with hj | ⟨rfl, -, rfl⟩
    · rcases (hreg k m).mp hk with hk | ⟨-, -, rfl⟩
      · exact ho.owner j k m hj hk
      · exact absurd hj (ho.not_mem_registered hnew j)
    · rcases (hreg k m).mp hk with hk | ⟨rfl, -, -⟩
      · exact absurd hk (ho.not_mem_registered hnew k)
      · rfl

/-- A change that leaves the names where they are. -/
theorem counted (ho : Owned left h) {i : ι} {s : LoadState}
    (hcounter : h.modules.counter ≤ s.modules.counter)
    (hmemory : s.modules.inMemory = h.modules.inMemory) (hloader : s.loader = h.loaders i) :
    Owned left (h.put i s) := by
  have hput : (h.put i s).loaders = h.loaders := by
    rw [Host.put, hloader, Function.update_eq_self]
  have hmem : (h.put i s).modules.inMemory = h.modules.inMemory := hmemory
  refine ⟨fun name hname => ?_, ?_, ?_, ?_, ?_, ?_⟩
  · rw [hmem] at hname
    obtain ⟨n, hn, stem, hstem⟩ := ho.earlier name hname
    exact ⟨n, Nat.lt_of_lt_of_le hn hcounter, stem, hstem⟩
  · rw [hmem]
    exact ho.distinct
  · rw [hmem, hput]
    exact ho.mem_iff
  · rw [hmem]
    exact ho.inOrder
  · rw [hput]
    exact ho.apart
  · rw [hput]
    exact ho.owner

/-- One load. -/
theorem load (ho : Owned left h) (w : Workspace) (i : ι) (path : String) :
    Owned (left ++ strayOf w h.modules.counter path)
      (h.put i (Plugin.load w (h.view i) path).state) := by
  have hends : LoadEnds (h.view i) (nameFor h.modules.counter path)
      (strayOf w h.modules.counter path) (Plugin.load w (h.view i) path).state :=
    load_ends w (h.view i) path
  revert hends
  generalize strayOf w h.modules.counter path = stray
  generalize (Plugin.load w (h.view i) path).state = s
  rintro (_ | _ | _ | _)
  · rw [List.append_nil]
    exact ho.counted (Nat.le_refl _) rfl rfl
  · rw [List.append_nil]
    exact ho.counted (Nat.le_succ _) rfl rfl
  · exact ho.named i _ false rfl rfl (List.append_nil _).symm
  · exact ho.named i _ true rfl rfl rfl

theorem loadAll (ho : Owned left h) (w : Workspace) (i : ι) (paths : List String) :
    Owned (left ++ straysOf w (h.view i) paths)
      (h.put i (Plugin.loadAll w (h.view i) paths).state) := by
  induction paths generalizing left h with
  | nil =>
    rw [straysOf, List.append_nil]
    simpa [Plugin.loadAll] using ho
  | cons path rest ih =>
    have hone := ho.load w i path
    have hcounter : (h.view i).modules.counter = h.modules.counter := rfl
    rw [straysOf, Keeps.loadAll_state, ← List.append_assoc, hcounter]
    cases goesOn (Plugin.load w (h.view i) path).journal.outcome with
    | false => simpa using hone
    | true => simpa using ih hone

theorem release (ho : Owned left h) (i : ι) : Owned left (h.put i (Plugin.release (h.view i))) := by
  have hmem : ∀ name, name ∈ (h.put i (Plugin.release (h.view i))).modules.inMemory ↔
      name ∈ h.modules.inMemory ∧ name ∉ (h.loaders i).registered := by
    intro name
    simp [Host.put, Plugin.release, Host.view]
  have hreg : ∀ j name, name ∈ ((h.put i (Plugin.release (h.view i))).loaders j).registered ↔
      j ≠ i ∧ name ∈ (h.loaders j).registered := by
    intro j name
    rw [mem_put_registered]
    by_cases hij : j = i <;> simp [hij, Plugin.release]
  refine ⟨fun name hname => ho.earlier name ((hmem name).mp hname).1, ho.distinct.filter _,
    fun name => ?_, ?_, fun j name hname => ho.apart j name ((hreg j name).mp hname).2,
    fun j k name hj hk => ho.owner j k name ((hreg j name).mp hj).2 ((hreg k name).mp hk).2⟩
  · rw [hmem name, ho.mem_iff name]
    constructor
    · rintro ⟨hleft | ⟨j, hj⟩, hnot⟩
      · exact Or.inl hleft
      · refine Or.inr ⟨j, (hreg j name).mpr ⟨?_, hj⟩⟩
        rintro rfl
        exact hnot hj
    · rintro (hleft | ⟨j, hj⟩)
      · exact ⟨Or.inl hleft, fun hi => ho.apart i name hi hleft⟩
      · obtain ⟨hij, hj⟩ := (hreg j name).mp hj
        exact ⟨Or.inr ⟨j, hj⟩, fun hi => hij (ho.owner j i name hj hi)⟩
  · -- No name that was left is taken out.
    conv_rhs => rw [← ho.inOrder]
    show (h.modules.inMemory.filter _).filter _ = _
    rw [List.filter_filter]
    refine List.filter_congr fun name _ => ?_
    by_cases hleft : name ∈ left
    · have hnot : name ∉ (h.loaders i).registered := fun hi => ho.apart i name hi hleft
      simp [hleft, hnot, Host.view]
    · simp [hleft]

/-- **One call keeps it.** -/
theorem call (ho : Owned left h) (c : Call ι) : Owned (left ++ c.strays h) (c.run h) := by
  cases c with
  | load w i path => exact ho.load w i path
  | loadAll w i paths => exact ho.loadAll w i paths
  | release i =>
    rw [Call.strays, List.append_nil]
    exact ho.release i

theorem run (ho : Owned left h) (calls : List (Call ι)) :
    Owned (left ++ strays h calls) (Plugin.run h calls) := by
  induction calls generalizing left h with
  | nil =>
    rw [strays, List.append_nil]
    exact ho
  | cons c rest ih =>
    rw [strays, ← List.append_assoc]
    exact ih (ho.call c)

end Owned

/-! ### Releasing all loaders -/

theorem strays_releases (h : Host ι) (all : List ι) : strays h (all.map .release) = [] := by
  induction all generalizing h with
  | nil => rfl
  | cons i rest ih => exact ih _

theorem registered_releases {i : ι} (h : Host ι) {all : List ι}
    (hi : (h.loaders i).registered ≠ [] → i ∈ all) :
    ((run h (all.map .release)).loaders i).registered = [] := by
  induction all generalizing h with
  | nil => exact of_not_not fun hne => List.not_mem_nil (hi hne)
  | cons j rest ih =>
    refine ih ((Call.release j).run h) fun hne => ?_
    have hij : i ≠ j := by
      rintro rfl
      exact hne (by simp [Call.run, Host.put, Plugin.release])
    have hsame : ((Call.release j).run h).loaders i = h.loaders i := Function.update_of_ne hij _ _
    rw [hsame] at hne
    exact (List.mem_cons.mp (hi hne)).resolve_left hij

/-- **After any calls, the names in memory are those that the loaders have registered, each of them
one loader's, and the strays, which no loader has registered.  The memory agrees with the loaders
exactly when there are no strays, and once all loaders have been released it holds the strays and
nothing else.** -/
theorem memory_of_loaders (n : Nat) (calls : List (Call ι)) :
    let h := run (Host.start ⟨n, []⟩) calls
    let left := strays (Host.start ⟨n, []⟩) calls
    h.modules.inMemory.Nodup ∧
      (∀ name, name ∈ h.modules.inMemory ↔
        name ∈ left ∨ ∃ i, name ∈ (h.loaders i).registered) ∧
      (∀ i, ∀ name ∈ (h.loaders i).registered,
        name ∉ left ∧ ∀ j, name ∈ (h.loaders j).registered → j = i) ∧
      ((∀ name, name ∈ h.modules.inMemory ↔ ∃ i, name ∈ (h.loaders i).registered) ↔ left = []) ∧
      ∀ all : List ι, (∀ i, (h.loaders i).registered ≠ [] → i ∈ all) →
        (run h (all.map .release)).modules.inMemory = left := by
  intro h left
  have ho : Owned left h := by simpa using (owned_start n).run calls
  refine ⟨ho.distinct, ho.mem_iff, fun i name hi => ⟨ho.apart i name hi, ?_⟩, ho.agrees_iff, ?_⟩
  · intro j hj
    exact ho.owner j i name hj hi
  · intro all hall
    have hreleased : Owned left (run h (all.map .release)) := by
      simpa [strays_releases] using ho.run (all.map .release)
    exact hreleased.inMemory_eq fun i => registered_releases h (hall i)

/-- The text of the file that interrupts its import. -/
def interruptingText : List UInt8 := Text.Utf8.encode "raise KeyboardInterrupt\n".toList

/-- A module whose import is interrupted, one whose import fails and one that can be imported. -/
def interruptedShelf : Workspace :=
  ⟨.dir [("p.py", .file ⟨interruptingText⟩), ("b.py", .file ⟨refusingText⟩),
    ("a.py", .file ⟨[]⟩)], [], [], shelfInterpreter⟩

/-- Two loaders in turn; the one that is interrupted does not go on. -/
def interruptedCalls : List (Call Bool) :=
  [.load interruptedShelf false "a.py",
    .loadAll interruptedShelf false ["b.py", "p.py", "a.py"],
    .load interruptedShelf true "a.py"]

theorem memory_of_loaders_of_interrupted :
    let h := run (Host.start ⟨0, []⟩) interruptedCalls
    (h.loaders false).registered = ["lintkit_plugin_0_a"] ∧
      (h.loaders true).registered = ["lintkit_plugin_3_a"] ∧
      "lintkit_plugin_2_p" ∈ h.modules.inMemory ∧
      ¬(∀ name, name ∈ h.modules.inMemory ↔ ∃ i, name ∈ (h.loaders i).registered) ∧
      (∀ i, (h.loaders i).registered ≠ [] → i ∈ [true, false]) ∧
      (run h ([true, false].map .release)).modules.inMemory = ["lintkit_plugin_2_p"] := by
  intro h
  obtain ⟨-, hmem, -, hagree, hall⟩ := memory_of_loaders 0 interruptedCalls
  have hleft : strays (Host.start ⟨0, []⟩) interruptedCalls = ["lintkit_plugin_2_p"] := by
    decide +kernel
  have hevery : ∀ i, (h.loaders i).registered ≠ [] → i ∈ [true, false] := by
    intro i _
    cases i <;> simp
  refine ⟨by decide +kernel, by decide +kernel, ?_, ?_, hevery, ?_⟩
  · rw [hmem, hleft]
    exact Or.inl (List.mem_singleton.mpr rfl)
  · rw [hagree, hleft]
    exact List.cons_ne_nil _ _
  · rw [hall [true, false] hevery, hleft]

end LintHost.Plugin
