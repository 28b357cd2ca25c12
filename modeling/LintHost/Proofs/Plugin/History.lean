/-
Loaders that share one counter, over any calls to them.

A `Call` goes to one of the loaders: it loads a module, loads several, or releases the loader.  What
is on record of a call is which names it gave out, whether the imports under these names succeeded,
and which loader it released.  Calls find whatever files are there at their time, so the same path
may be imported at one time and fail at another.

`loaders_keep` says what the loaders hold after any calls: each of them the names of its own imports
that succeeded after its last release, in their order, and nothing else.  The step is one load,
`Keeps.load`: it gives out a name only where there is a file, with a number that no earlier name
has, and a name tells its number whatever stem stands behind it, `moduleName_inj`.
-/
import LintHost.Proofs.Plugin.Loading
import LintHost.Proofs.Text.Digit
import Mathlib.Data.List.DropRight
import Mathlib.Logic.Function.Basic

namespace LintHost.Plugin

open LintHost.Outcome

/-! ### The numbers in names -/

theorem decimal_inj {n m : Nat} (h : Text.decimal n = Text.decimal m) : n = m := by
  have hread : ∀ k, Nat.ofDigitChars 10 (Text.decimal k) 0 = k := fun k =>
    Nat.ofDigitChars_toDigits (by decide) (by decide)
  rw [← hread n, h, hread m]

/-- The digits of a number end at what is no digit. -/
theorem takeWhile_decimal (n : Nat) (s : List Char) :
    (Text.decimal n ++ '_' :: s).takeWhile Char.isDigit = Text.decimal n := by
  rw [List.takeWhile_append_of_pos fun c => Text.isDigit_of_mem_decimal,
    List.takeWhile_cons_of_neg (by decide), List.append_nil]

theorem toList_numbered (front : String) (n : Nat) (stem : String) :
    (front ++ String.ofList (Text.decimal n) ++ "_" ++ stem).toList =
      front.toList ++ (Text.decimal n ++ '_' :: stem.toList) := by
  have hbar : "_".toList = ['_'] := rfl
  simp only [String.toList_append, String.toList_ofList, hbar, List.append_assoc,
    List.singleton_append]

theorem numbered_inj {front stem stem' : String} {n m : Nat}
    (h : front ++ String.ofList (Text.decimal n) ++ "_" ++ stem =
      front ++ String.ofList (Text.decimal m) ++ "_" ++ stem') : n = m := by
  have hlist := congrArg String.toList h
  rw [toList_numbered, toList_numbered] at hlist
  have hdigits := congrArg (List.takeWhile Char.isDigit) (List.append_cancel_left hlist)
  rw [takeWhile_decimal, takeWhile_decimal] at hdigits
  exact decimal_inj hdigits

/-- A module's name tells its number, whatever the stem. -/
theorem moduleName_inj {n m : Nat} {stem stem' : String}
    (h : moduleName n stem = moduleName m stem') : n = m :=
  numbered_inj h

/-! ### One load -/

/-- The name that loading a path gives out. -/
def nameFor (n : Nat) (path : String) : String := moduleName n (Path.ofString path).stem

/-- Whether importing the file at a path under a name succeeds. -/
def imports (w : Workspace) (path name : String) : Bool := (importFile w path name).isOk

/-- How many names loading a path gives out. -/
def taken (w : Workspace) (path : String) : Nat := if w.isFileText path then 1 else 0

variable {w : Workspace} {s : LoadState} {path : String}

theorem load_missing (h : w.isFileText path = false) :
    load w s path = ⟨s, Journal.fail (.load ⟨path, .notFound⟩)⟩ := by
  rw [load, if_neg (by simp [h])]

theorem load_of_file (h : w.isFileText path = true) :
    load w s path =
      importModule path (nameFor s.modules.counter path) (Path.ofString path)
        (importFile w path (nameFor s.modules.counter path)) s.next := by
  rw [load, if_pos h]
  rfl

theorem importModule_counter (name : String) (p : Path) (imported : Except Raised Module) :
    (importModule path name p imported s).state.modules.counter = s.modules.counter := by
  unfold importModule
  split <;> rfl

/-- A number is taken exactly where there is a file. -/
theorem load_counter :
    (load w s path).state.modules.counter = s.modules.counter + taken w path := by
  unfold taken
  cases hfile : w.isFileText path with
  | false =>
    rw [load_missing hfile]
    rfl
  | true =>
    rw [load_of_file hfile, importModule_counter]
    rfl

theorem importModule_registered (name : String) (p : Path) (imported : Except Raised Module) :
    (importModule path name p imported s).state.loader.registered =
      s.loader.registered ++ if imported.isOk then [name] else [] := by
  unfold importModule
  split
  · exact (List.append_nil _).symm
  · exact (List.append_nil _).symm
  · rfl

/-- What a loader registers is the name of an import that succeeded. -/
theorem load_registered (h : w.isFileText path = true) :
    (load w s path).state.loader.registered = s.loader.registered ++
      if imports w path (nameFor s.modules.counter path) then [nameFor s.modules.counter path]
      else [] := by
  rw [load_of_file h]
  exact importModule_registered _ _ _

/-- The name under which a module is imported and the state are nothing to what comes of it. -/
theorem importModule_journal (name name' : String) (p : Path) (imported : Except Raised Module)
    (s' : LoadState) :
    (importModule path name p imported s).journal =
      (importModule path name' p imported s').journal := by
  unfold importModule
  split <;> rfl

/-- What comes of a path depends on the state by what is imported under the next number only. -/
theorem load_journal (s' : LoadState)
    (h : importFile w path (nameFor s.modules.counter path) =
      importFile w path (nameFor s'.modules.counter path)) :
    (load w s path).journal = (load w s' path).journal := by
  cases hfile : w.isFileText path with
  | false => rw [load_missing hfile, load_missing hfile]
  | true =>
    rw [load_of_file hfile, load_of_file hfile, h]
    exact importModule_journal _ _ _ _ _

/-- What an import that succeeded ends in is no report of a broken module. -/
theorem importModule_loader {name : String} {p : Path} {imported : Except Raised Module}
    {f : LoadFailure}
    (h : (importModule path name p imported s).journal.outcome = .error (.load f)) :
    (importModule path name p imported s).state.loader = s.loader := by
  match imported with
  | .error (.interrupt _) => rfl
  | .error (.exception _ _) => rfl
  | .error (.speechless _ _) => rfl
  | .ok m => exact absurd rfl ((failsWith_iff.mp (imported_escapes name p m) _ h).not_load f)

/-- A load that reports a missing or a broken module leaves its loader as it was. -/
theorem load_loader {f : LoadFailure} (h : (load w s path).journal.outcome = .error (.load f)) :
    (load w s path).state.loader = s.loader := by
  cases hfile : w.isFileText path with
  | false => rw [load_missing hfile]
  | true =>
    rw [load_of_file hfile] at h ⊢
    exact importModule_loader h

/-! ### What is on record -/

section Record

variable {ι : Type}

/-- What is on record of loaders. -/
inductive Happening (ι : Type) where
  /-- A loader gave out a name, and the import under it succeeded or did not. -/
  | named (loader : ι) (name : String) (imported : Bool)
  | released (loader : ι)
deriving DecidableEq

/-- The names that were given out. -/
def givenNames (past : List (Happening ι)) : List String :=
  past.filterMap fun
    | .named _ name _ => some name
    | .released _ => none

theorem givenNames_named (i : ι) (past : List (Happening ι)) (name : String) (imported : Bool) :
    givenNames (past ++ [.named i name imported]) = givenNames past ++ [name] := by
  rw [givenNames, List.filterMap_append]
  rfl

theorem givenNames_released (i : ι) (past : List (Happening ι)) :
    givenNames (past ++ [.released i]) = givenNames past := by
  rw [givenNames, List.filterMap_append]
  exact List.append_nil _

/-- The loader of a path goes on with the next one. -/
def goesOn : Except Failure Loaded → Bool
  | .ok _ => true
  | .error (.load _) => true
  | .error _ => false

/-- A loader that has loaded nothing, and the next number. -/
def LoadState.fresh (n : Nat) : LoadState := ⟨⟨n, []⟩, ⟨[]⟩⟩

/-- The record of one load, under the next number. -/
def recordOf (w : Workspace) (i : ι) (n : Nat) (path : String) : List (Happening ι) :=
  if w.isFileText path then [.named i (nameFor n path) (imports w path (nameFor n path))] else []

/-- The record of loading several paths: those up to the first that ends with something else than a
module or a report that there is none. -/
def recordOfAll (w : Workspace) (i : ι) : Nat → List String → List (Happening ι)
  | _, [] => []
  | n, path :: rest =>
    recordOf w i n path ++
      if goesOn (load w (.fresh n) path).journal.outcome then
        recordOfAll w i (n + taken w path) rest
      else []

/-- A call to one of the loaders, and the files that it finds. -/
inductive Call (ι : Type) where
  | load (w : Workspace) (loader : ι) (path : String)
  | loadAll (w : Workspace) (loader : ι) (paths : List String)
  | release (loader : ι)

/-- The record of a call, under the next number. -/
def Call.record (n : Nat) : Call ι → List (Happening ι)
  | .load w i path => recordOf w i n path
  | .loadAll w i paths => recordOfAll w i n paths
  | .release i => [.released i]

/-- The record of calls, one after the other. -/
def record (n : Nat) : List (Call ι) → List (Happening ι)
  | [] => []
  | c :: rest => c.record n ++ record (n + (givenNames (c.record n)).length) rest

variable [DecidableEq ι]

/-- What is on record since the last release of a loader. -/
def sinceRelease (i : ι) (past : List (Happening ι)) : List (Happening ι) :=
  past.rtakeWhile fun h => decide (h ≠ .released i)

/-- The names of a loader's imports that have succeeded since its last release. -/
def keptNames (i : ι) (past : List (Happening ι)) : List String :=
  (sinceRelease i past).filterMap fun
    | .named j name imported => if j = i ∧ imported = true then some name else none
    | .released _ => none

theorem keptNames_named (i j : ι) (past : List (Happening ι)) (name : String) (imported : Bool) :
    keptNames i (past ++ [.named j name imported]) =
      keptNames i past ++ if j = i ∧ imported = true then [name] else [] := by
  rw [keptNames, sinceRelease, List.rtakeWhile_concat, if_pos (by simp), List.filterMap_append,
    ← sinceRelease, ← keptNames]
  by_cases hkept : j = i ∧ imported = true
  · simp [hkept]
  · simp [hkept]

theorem keptNames_released (i j : ι) (past : List (Happening ι)) :
    keptNames i (past ++ [.released j]) = if j = i then [] else keptNames i past := by
  rw [keptNames, sinceRelease, List.rtakeWhile_concat]
  by_cases hji : j = i
  · rw [if_pos hji, if_neg (by simp [hji])]
    rfl
  · rw [if_neg hji, if_pos (by simp [hji]), List.filterMap_append, ← sinceRelease, ← keptNames]
    exact List.append_nil _

end Record

/-! ### All loaders -/

/-- The loaders of a process with the modules that they share. -/
structure Host (ι : Type) where
  modules : Modules
  loaders : ι → Loader

namespace Host

variable {ι : Type}

/-- Loaders that have loaded nothing. -/
def start (m : Modules) : Host ι := ⟨m, fun _ => ⟨[]⟩⟩

/-- What a loader sees. -/
def view (h : Host ι) (i : ι) : LoadState := ⟨h.modules, h.loaders i⟩

variable [DecidableEq ι]

/-- What a loader has changed. -/
def put (h : Host ι) (i : ι) (s : LoadState) : Host ι :=
  ⟨s.modules, Function.update h.loaders i s.loader⟩

@[simp] theorem put_view (h : Host ι) (i : ι) : h.put i (h.view i) = h := by
  rw [put, view, Function.update_eq_self]

@[simp] theorem view_put (h : Host ι) (i : ι) (s : LoadState) : (h.put i s).view i = s := by
  simp [put, view]

@[simp] theorem put_put (h : Host ι) (i : ι) (s s' : LoadState) :
    (h.put i s).put i s' = h.put i s' := by
  rw [put, put, put, Function.update_idem]

end Host

variable {ι : Type} [DecidableEq ι]

/-- Makes a call. -/
def Call.run (h : Host ι) : Call ι → Host ι
  | .load w i path => h.put i (Plugin.load w (h.view i) path).state
  | .loadAll w i paths => h.put i (Plugin.loadAll w (h.view i) paths).state
  | .release i => h.put i (Plugin.release (h.view i))

/-- Makes calls, one after the other. -/
def run (h : Host ι) (calls : List (Call ι)) : Host ι := calls.foldl Call.run h

/-- The loaders hold what the record says that they keep, and names have the numbers before the
next one. -/
structure Keeps (first : Nat) (past : List (Happening ι)) (h : Host ι) : Prop where
  registered : ∀ i, (h.loaders i).registered = keptNames i past
  counter : h.modules.counter = first + (givenNames past).length
  earlier : ∀ name ∈ givenNames past, ∃ n < h.modules.counter, ∃ stem, name = moduleName n stem
  distinct : (givenNames past).Nodup

theorem keeps_start (m : Modules) : Keeps m.counter ([] : List (Happening ι)) (Host.start m) :=
  ⟨fun _ => rfl, rfl, fun _ h => absurd h List.not_mem_nil, List.nodup_nil⟩

variable {first : Nat} {past : List (Happening ι)} {h : Host ι}

namespace Keeps

/-- A name under the next number is no name that was given out. -/
theorem new (hk : Keeps first past h) (stem : String) :
    moduleName h.modules.counter stem ∉ givenNames past := by
  intro hmem
  obtain ⟨n, hn, stem', hname⟩ := hk.earlier _ hmem
  exact absurd (moduleName_inj hname).symm (Nat.ne_of_lt hn)

/-- A name that is given out under the next number, and registered if its import succeeds. -/
theorem named (hk : Keeps first past h) (i : ι) {s : LoadState} (stem : String) (imported : Bool)
    (hcounter : s.modules.counter = h.modules.counter + 1)
    (hregistered : s.loader.registered = (h.loaders i).registered ++
      if imported then [moduleName h.modules.counter stem] else []) :
    Keeps first (past ++ [.named i (moduleName h.modules.counter stem) imported]) (h.put i s) := by
  refine ⟨fun j => ?_, ?_, ?_, ?_⟩
  · rw [keptNames_named, ← hk.registered j]
    by_cases hij : i = j
    · subst hij
      simp only [Host.put, Function.update_self, true_and]
      exact hregistered
    · rw [if_neg (by simp [hij]), List.append_nil]
      simp [Host.put, Function.update_of_ne (Ne.symm hij)]
  · show s.modules.counter = _
    rw [hcounter, givenNames_named, List.length_append, hk.counter]
    rfl
  · intro name hname
    show ∃ n < s.modules.counter, _
    rw [hcounter]
    rw [givenNames_named] at hname
    rcases List.mem_append.mp hname with hname | hname
    · obtain ⟨n, hn, stem', rfl⟩ := hk.earlier name hname
      exact ⟨n, by omega, stem', rfl⟩
    · exact ⟨h.modules.counter, by omega, stem, List.mem_singleton.mp hname⟩
  · rw [givenNames_named, List.nodup_append]
    refine ⟨hk.distinct, by simp, ?_⟩
    rintro name hname _ hnew rfl
    rw [List.mem_singleton.mp hnew] at hname
    exact hk.new stem hname

/-- One load. -/
theorem load (hk : Keeps first past h) (w : Workspace) (i : ι) (path : String) :
    Keeps first (past ++ recordOf w i h.modules.counter path)
      (h.put i (Plugin.load w (h.view i) path).state) := by
  unfold recordOf
  cases hfile : w.isFileText path with
  | false =>
    rw [load_missing hfile, if_neg (by simp), List.append_nil]
    simpa using hk
  | true =>
    have hcounter : (Plugin.load w (h.view i) path).state.modules.counter =
        h.modules.counter + 1 := by
      rw [load_counter, taken, if_pos hfile]
      rfl
    rw [if_pos rfl]
    exact hk.named i (Path.ofString path).stem _ hcounter (load_registered hfile)

/-- Loading several paths is one load after the other, up to one that it does not go on from. -/
theorem loadAll_state {w : Workspace} {s : LoadState} {path : String} {rest : List String} :
    (loadAll w s (path :: rest)).state =
      if goesOn (Plugin.load w s path).journal.outcome then
        (loadAll w (Plugin.load w s path).state rest).state
      else (Plugin.load w s path).state := by
  rw [loadAll]
  cases (Plugin.load w s path).journal.outcome with
  | ok plugin => rfl
  | error e => cases e <;> rfl

theorem loadAll (hk : Keeps first past h) (w : Workspace) (i : ι) (paths : List String) :
    Keeps first (past ++ recordOfAll w i h.modules.counter paths)
      (h.put i (Plugin.loadAll w (h.view i) paths).state) := by
  induction paths generalizing past h with
  | nil =>
    rw [recordOfAll, List.append_nil]
    simpa [Plugin.loadAll] using hk
  | cons path rest ih =>
    have hone := hk.load w i path
    have hfresh : (Plugin.load w (.fresh h.modules.counter) path).journal =
        (Plugin.load w (h.view i) path).journal := load_journal (h.view i) rfl
    rw [recordOfAll, loadAll_state, hfresh, ← List.append_assoc]
    cases goesOn (Plugin.load w (h.view i) path).journal.outcome with
    | false => simpa using hone
    | true =>
      have hrest := ih hone
      have hcounter : (h.put i (Plugin.load w (h.view i) path).state).modules.counter =
          h.modules.counter + taken w path := load_counter
      rw [hcounter, Host.view_put, Host.put_put] at hrest
      exact hrest

theorem release (hk : Keeps first past h) (i : ι) :
    Keeps first (past ++ [.released i]) (h.put i (Plugin.release (h.view i))) := by
  refine ⟨fun j => ?_, ?_, ?_, ?_⟩
  · rw [keptNames_released, ← hk.registered j]
    by_cases hij : i = j
    · subst hij
      simp [Host.put, Plugin.release]
    · rw [if_neg hij]
      simp [Host.put, Function.update_of_ne (Ne.symm hij)]
  · rw [givenNames_released]
    exact hk.counter
  · rw [givenNames_released]
    exact hk.earlier
  · rw [givenNames_released]
    exact hk.distinct

/-- **One call keeps it.** -/
theorem call (hk : Keeps first past h) (c : Call ι) :
    Keeps first (past ++ c.record h.modules.counter) (c.run h) := by
  cases c with
  | load w i path => exact hk.load w i path
  | loadAll w i paths => exact hk.loadAll w i paths
  | release i => exact hk.release i

theorem run (hk : Keeps first past h) (calls : List (Call ι)) :
    Keeps first (past ++ record h.modules.counter calls) (Plugin.run h calls) := by
  induction calls generalizing past h with
  | nil =>
    rw [record, List.append_nil]
    exact hk
  | cons c rest ih =>
    have hone := hk.call c
    have hcounter : (c.run h).modules.counter =
        h.modules.counter + (givenNames (c.record h.modules.counter)).length := by
      have hgiven : givenNames (past ++ c.record h.modules.counter) =
          givenNames past ++ givenNames (c.record h.modules.counter) := List.filterMap_append
      have hafter := hone.counter
      rw [hgiven, List.length_append, ← Nat.add_assoc, ← hk.counter] at hafter
      exact hafter
    have hrest := ih hone
    rw [hcounter, List.append_assoc] at hrest
    exact hrest

end Keeps

/-- **After any calls, each loader has registered the names of its imports that have succeeded since
its last release, in order; no name was given out twice, and the counter has counted the names.  A
load that reports a missing or broken module leaves all loaders as they are, and takes a number
where there is a file; a release empties its own loader and no other.** -/
theorem loaders_keep (m : Modules) (calls : List (Call ι)) :
    let h := run (Host.start m) calls
    let past := record m.counter calls
    (∀ i, (h.loaders i).registered = keptNames i past) ∧
      (givenNames past).Nodup ∧ h.modules.counter = m.counter + (givenNames past).length ∧
      (∀ w i path f, (load w (h.view i) path).journal.outcome = .error (.load f) →
        ((Call.load w i path).run h).loaders = h.loaders ∧
          ((Call.load w i path).run h).modules.counter = h.modules.counter + taken w path) ∧
      ∀ i, ((Call.release i).run h).loaders = Function.update h.loaders i ⟨[]⟩ := by
  intro h past
  have hk : Keeps m.counter past h := (keeps_start m).run calls
  refine ⟨hk.registered, hk.distinct, hk.counter, ?_, fun i => rfl⟩
  intro w i path f hfails
  refine ⟨?_, load_counter⟩
  show Function.update h.loaders i (load w (h.view i) path).state.loader = h.loaders
  rw [load_loader hfails]
  exact Function.update_eq_self i h.loaders

/-- What comes of running the files on a shelf: one of them cannot be imported, one interrupts its
import, and the others list nothing. -/
def shelfInterpreter : Interpreter :=
  { Interpreter.bare with
    execute := fun _ _ path _ =>
      if path.name = "b.py" then .error (.exception "ValueError" "no")
      else if path.name = "p.py" then .error (.interrupt "KeyboardInterrupt")
      else .ok .empty }

/-- The text of the file that cannot be imported. -/
def refusingText : List UInt8 := Text.Utf8.encode "raise ValueError('no')\n".toList

/-- A module that can be imported, and one that cannot. -/
def shelf : Workspace :=
  ⟨.dir [("a_1.py", .file ⟨[]⟩), ("b.py", .file ⟨refusingText⟩)], [], [], shelfInterpreter⟩

/-- Two loaders in turn. -/
def shelfCalls : List (Call Bool) :=
  [.loadAll shelf false ["b.py", "gone.py"], .load shelf false "a_1.py", .load shelf true "a_1.py",
    .release false, .load shelf false "a_1.py"]

theorem loaders_keep_of_shelf :
    let h := run (Host.start ⟨7, []⟩) shelfCalls
    (h.loaders true).registered = ["lintkit_plugin_9_a_1"] ∧
      (h.loaders false).registered = ["lintkit_plugin_10_a_1"] ∧ h.modules.counter = 11 ∧
      ((Call.load shelf true "b.py").run h).loaders = h.loaders ∧
      ((Call.load shelf true "b.py").run h).modules.counter = 12 := by
  obtain ⟨hkept, -, hcounter, hfailed, -⟩ := loaders_keep ⟨7, []⟩ shelfCalls
  have hfails :
      (load shelf ((run (Host.start ⟨7, []⟩) shelfCalls).view true) "b.py").journal.outcome =
        .error (.load ⟨"b.py", .failed "no"⟩) := by
    have himport : ∀ name, importFile shelf "b.py" name = .error (.exception "ValueError" "no") :=
      fun _ => rfl
    rw [load_of_file rfl, himport]
    rfl
  obtain ⟨hloaders, hnext⟩ := hfailed shelf true "b.py" _ hfails
  refine ⟨?_, ?_, ?_, hloaders, ?_⟩
  · rw [hkept]
    decide +kernel
  · rw [hkept]
    decide +kernel
  · rw [hcounter]
    decide +kernel
  · rw [hnext, hcounter]
    decide +kernel

end LintHost.Plugin
