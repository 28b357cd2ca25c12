/-
What a walk below a directory gives.

A walk needs room for every directory that it goes into, and it looks at everything that it meets.
So it gives a list where the directories inside each other are no more than there is room for,
`visits_eq_map_ok_iff`, and nothing it does on the way fails, `scan_eq_ok_iff`; what it gives then
are files, `isFile_of_mem_scan`, under names of files.  Where there are no rules and no patterns,
looking is all it does, and only a path that is too long can end it, or a tree that is too deep:
`scan_plain_eq_ok_iff`.
-/
import LintHost.Walk
import LintHost.Proofs.Lookup

namespace LintHost

open Outcome

/-! ### How deep a tree is -/

theorem map_ok_inj {α : Type} {xs ys : List α}
    (h : xs.map (Except.ok : α → Except Failure α) = ys.map .ok) : xs = ys :=
  (List.map_inj_right fun _ _ => Except.ok.inj).mp h

namespace FileTree

mutual

/-- The number of directories inside each other, the outermost one counted. -/
def depth : FileTree → Nat
  | .file _ => 0
  | .dir es => depthOf es + 1

def depthOf : List (String × FileTree) → Nat
  | [] => 0
  | (_, t) :: rest => max t.depth (depthOf rest)

end

mutual

/-- With room for all directories inside each other, a walk meets all that there is. -/
theorem visits_of_depth_le {room : Nat} {t : FileTree} (h : t.depth ≤ room) :
    t.visits room = t.contents.map .ok := by
  match t, room with
  | .file f, _ => simp only [visits, contents, List.map_nil]
  | .dir es, 0 => simp [depth] at h
  | .dir es, room + 1 =>
    rw [depth, Nat.add_le_add_iff_right] at h
    rw [visits, contents, visitsOf_of_depthOf_le h, List.map_append, List.map_map]
    rfl

theorem visitsOf_of_depthOf_le {room : Nat} {es : List (String × FileTree)}
    (h : depthOf es ≤ room) : visitsOf room es = (contentsOf es).map .ok := by
  match es with
  | [] => simp only [visitsOf, contentsOf, List.map_nil]
  | (n, t) :: rest =>
    obtain ⟨ht, hrest⟩ := Nat.max_le.mp (depthOf.eq_2 n t rest ▸ h)
    rw [visitsOf, contentsOf, visits_of_depth_le ht, visitsOf_of_depthOf_le hrest,
      List.map_append, List.map_map, List.map_map]
    rfl

end

mutual

/-- Without it, a walk can go no further at some point. -/
theorem error_mem_visits {room : Nat} {t : FileTree} (h : room < t.depth) :
    .error .walkTooDeep ∈ t.visits room := by
  match t, room with
  | .file f, _ => simp [depth] at h
  | .dir es, 0 =>
    rw [visits]
    exact List.mem_append_right _ (List.mem_singleton_self _)
  | .dir es, room + 1 =>
    rw [depth, Nat.add_lt_add_iff_right] at h
    rw [visits]
    exact List.mem_append_right _ (error_mem_visitsOf h)

theorem error_mem_visitsOf {room : Nat} {es : List (String × FileTree)} (h : room < depthOf es) :
    .error .walkTooDeep ∈ visitsOf room es := by
  match es with
  | [] => simp [depthOf] at h
  | (n, t) :: rest =>
    rw [visitsOf]
    rcases lt_max_iff.mp (depthOf.eq_2 n t rest ▸ h) with ht | hrest
    · exact List.mem_append_left _ (List.mem_map.mpr ⟨_, error_mem_visits ht, rfl⟩)
    · exact List.mem_append_right _ (error_mem_visitsOf hrest)

end

mutual

/-- All that a walk fails with is that there is no more room. -/
theorem error_of_mem_visits {room : Nat} {t : FileTree} {e : Failure}
    (h : .error e ∈ t.visits room) : e = .walkTooDeep := by
  match t, room with
  | .file f, _ => simp [visits] at h
  | .dir es, 0 => simpa [visits] using h
  | .dir es, room + 1 =>
    rw [visits, List.mem_append] at h
    rcases h with hhere | hbelow
    · obtain ⟨_, -, hsame⟩ := List.mem_map.mp hhere
      cases hsame
    · exact error_of_mem_visitsOf hbelow

theorem error_of_mem_visitsOf {room : Nat} {es : List (String × FileTree)} {e : Failure}
    (h : .error e ∈ visitsOf room es) : e = .walkTooDeep := by
  match es with
  | [] => simp [visitsOf] at h
  | (n, t) :: rest =>
    rw [visitsOf, List.mem_append] at h
    rcases h with hbelow | hrest
    · obtain ⟨met, hmet, hsame⟩ := List.mem_map.mp hbelow
      cases met with
      | ok names => cases hsame
      | error e' =>
        obtain rfl : e' = e := Except.error.inj hsame
        exact error_of_mem_visits hmet
    · exact error_of_mem_visitsOf hrest

end

mutual

/-- Whatever the room, a walk meets nothing else. -/
theorem mem_contents_of_mem_visits {room : Nat} {t : FileTree} {names : List String}
    (h : .ok names ∈ t.visits room) : names ∈ t.contents := by
  match t, room with
  | .file f, _ => simp [visits] at h
  | .dir es, 0 =>
    rw [visits, List.mem_append] at h
    rw [contents]
    rcases h with hhere | hend
    · obtain ⟨e, he, hsame⟩ := List.mem_map.mp hhere
      exact List.mem_append_left _ (List.mem_map.mpr ⟨e, he, Except.ok.inj hsame⟩)
    · cases List.mem_singleton.mp hend
  | .dir es, room + 1 =>
    rw [visits, List.mem_append] at h
    rw [contents]
    rcases h with hhere | hbelow
    · obtain ⟨e, he, hsame⟩ := List.mem_map.mp hhere
      exact List.mem_append_left _ (List.mem_map.mpr ⟨e, he, Except.ok.inj hsame⟩)
    · exact List.mem_append_right _ (mem_contentsOf_of_mem_visitsOf hbelow)

theorem mem_contentsOf_of_mem_visitsOf {room : Nat} {es : List (String × FileTree)}
    {names : List String} (h : .ok names ∈ visitsOf room es) : names ∈ contentsOf es := by
  match es with
  | [] => simp [visitsOf] at h
  | (n, t) :: rest =>
    rw [visitsOf, List.mem_append] at h
    rw [contentsOf]
    rcases h with hbelow | hrest
    · obtain ⟨met, hmet, hsame⟩ := List.mem_map.mp hbelow
      cases met with
      | error e => cases hsame
      | ok below =>
        rw [← Except.ok.inj hsame]
        exact List.mem_append_left _ (List.mem_map_of_mem (mem_contents_of_mem_visits hmet))
    · exact List.mem_append_right _ (mem_contentsOf_of_mem_visitsOf hrest)

end

/-- **A walk meets nothing but paths where there is room for all directories inside each other**,
and then it meets all that there is. -/
theorem visits_eq_map_ok_iff {room : Nat} {t : FileTree} {found : List (List String)} :
    t.visits room = found.map .ok ↔ t.depth ≤ room ∧ found = t.contents := by
  constructor
  · intro h
    have hroom : t.depth ≤ room := by
      by_contra hdeep
      have hmem := error_mem_visits (Nat.not_le.mp hdeep)
      rw [h] at hmem
      obtain ⟨names, -, hsame⟩ := List.mem_map.mp hmem
      cases hsame
    rw [visits_of_depth_le hroom] at h
    exact ⟨hroom, (map_ok_inj h).symm⟩
  · rintro ⟨hroom, rfl⟩
    exact visits_of_depth_le hroom

end FileTree

namespace Workspace

/-! ### What is kept of what is met -/

section KeepFrom

variable {α β : Type}

theorem keepFrom_eq_ok_iff {keeps : α → Except Failure Bool} {met : List (Except Failure α)}
    {kept : List α} :
    keepFrom keeps met = .ok kept ↔
      ∃ found : List α, met = found.map .ok ∧ (∀ x ∈ found, ∃ b, keeps x = .ok b) ∧
        kept = found.filter fun x => isTrue (keeps x) := by
  induction met generalizing kept with
  | nil =>
    rw [keepFrom]
    constructor
    · rintro ⟨⟩
      exact ⟨[], rfl, List.forall_mem_nil _, rfl⟩
    · rintro ⟨found, hfound, -, rfl⟩
      rw [List.map_eq_nil_iff.mp hfound.symm]
      rfl
  | cons first rest ih =>
    rw [keepFrom, bind_eq_ok_iff]
    constructor
    · rintro ⟨x, rfl, hrest⟩
      obtain ⟨b, hb, hrest⟩ := bind_eq_ok_iff.mp hrest
      obtain ⟨more, hmore, hkept⟩ := bind_eq_ok_iff.mp hrest
      obtain ⟨found, rfl, hall, rfl⟩ := ih.mp hmore
      refine ⟨x :: found, rfl, List.forall_mem_cons.mpr ⟨⟨b, hb⟩, hall⟩, ?_⟩
      rw [← Except.ok.inj hkept, List.filter_cons, hb]
      rfl
    · rintro ⟨found, hfound, hall, rfl⟩
      obtain ⟨x, others, rfl, rfl, rfl⟩ := List.map_eq_cons_iff.mp hfound.symm
      obtain ⟨⟨b, hb⟩, hothers⟩ := List.forall_mem_cons.mp hall
      refine ⟨x, rfl, bind_eq_ok_iff.mpr ⟨b, hb, bind_eq_ok_iff.mpr
        ⟨_, ih.mpr ⟨others, rfl, hothers, rfl⟩, ?_⟩⟩⟩
      rw [List.filter_cons, hb]
      rfl

/-- What is kept under other names. -/
theorem keepFrom_map (keeps : β → Except Failure Bool) (f : α → β)
    (met : List (Except Failure α)) :
    keepFrom keeps (met.map (Except.map f)) =
      List.map f <$> keepFrom (fun x => keeps (f x)) met := by
  induction met with
  | nil => rfl
  | cons first rest ih =>
    cases first with
    | error e => rfl
    | ok x =>
      rw [List.map_cons, keepFrom, keepFrom, ih]
      show (keeps (f x) >>= fun isKept =>
          (List.map f <$> keepFrom (fun x => keeps (f x)) rest) >>= fun more =>
            .ok (if isKept then f x :: more else more)) =
        List.map f <$> (keeps (f x) >>= fun isKept =>
          keepFrom (fun x => keeps (f x)) rest >>= fun more =>
            .ok (if isKept then x :: more else more))
      cases keeps (f x) with
      | error e => rfl
      | ok b =>
        cases keepFrom (fun x => keeps (f x)) rest with
        | error e => rfl
        | ok more => cases b <;> rfl

theorem keepFrom_congr {f g : α → Except Failure Bool} {met : List (Except Failure α)}
    (h : ∀ x, .ok x ∈ met → f x = g x) : keepFrom f met = keepFrom g met := by
  induction met with
  | nil => rfl
  | cons first rest ih =>
    rw [keepFrom, keepFrom, ih fun x hx => h x (List.mem_cons_of_mem _ hx)]
    cases first with
    | error e => rfl
    | ok x =>
      show (f x >>= _) = (g x >>= _)
      rw [h x List.mem_cons_self]

theorem FailsWith.keepFrom {Q : Failure → Prop} {keeps : α → Except Failure Bool}
    {met : List (Except Failure α)} (hmet : ∀ e, .error e ∈ met → Q e)
    (hkeeps : ∀ x, FailsWith Q (keeps x)) : FailsWith Q (Workspace.keepFrom keeps met) := by
  induction met with
  | nil => trivial
  | cons first rest ih =>
    rw [Workspace.keepFrom]
    refine FailsWith.bind ?_ fun x => (hkeeps x).bind fun b => FailsWith.bind ?_ fun more => trivial
    · cases first with
      | error e => exact hmet e List.mem_cons_self
      | ok x => trivial
    · exact ih fun e he => hmet e (List.mem_cons_of_mem _ he)

end KeepFrom

/-- A path can be looked at. -/
def Lookable (w : Workspace) (p : Path) : Prop := ∃ b, w.isFile p = .ok b

/-- A look at a path finds a file. -/
def isThere (w : Workspace) (p : Path) : Bool := isTrue (w.isFile p)

/-- Everything below the directory that a path leads to. -/
def below (w : Workspace) (p : Path) : List Path :=
  match w.locate p with
  | .ok (_, t) => t.contents.map fun names => ⟨p.root, p.names ++ names⟩
  | .error _ => []

/-- The number of directories inside each other that a walk from the directory that a path leads to
goes into, that directory counted. -/
def depthBelow (w : Workspace) (p : Path) : Nat :=
  match w.locate p with
  | .ok (_, t) => t.depth
  | .error _ => 0

variable {w : Workspace} {base p : Path} {patterns : List String} {files : List Path}

/-! ### Looking at a path -/

theorem isThere_of_isFile {b : Bool} (h : w.isFile p = .ok b) : w.isThere p = b := by
  rw [isThere, h]
  rfl

theorem exists_test_iff {holds : FileTree → Bool} :
    (∃ b, w.test p holds = .ok b) ↔
      ¬ (Spellable p.toString ∧ w.locate p = .error .nameTooLong) := by
  cases htest : w.test p holds with
  | ok b =>
    refine ⟨fun _ ⟨hspell, hlong⟩ => ?_, fun _ => ⟨b, rfl⟩⟩
    have hfails : w.test p holds = .error (.os ⟨.nameTooLong, p.toString⟩) :=
      test_eq_error_iff.mpr ⟨hspell, hlong, rfl⟩
    rw [hfails] at htest
    cases htest
  | error e =>
    obtain ⟨hspell, hlong, -⟩ := test_eq_error_iff.mp htest
    constructor
    · rintro ⟨b, hb⟩
      cases hb
    · intro h
      exact absurd ⟨hspell, hlong⟩ h

/-- Only a path that is too long cannot be looked at. -/
theorem lookable_iff :
    w.Lookable p ↔ ¬ (Spellable p.toString ∧ w.locate p = .error .nameTooLong) := exists_test_iff

/-- Looking for a directory is no harder than looking for a file. -/
theorem exists_isDir_iff : (∃ b, w.isDir p = .ok b) ↔ w.Lookable p :=
  exists_test_iff.trans lookable_iff.symm

/-- A walk fails for a name that is too long only where there is one. -/
theorem walk_ne_nameTooLong {root : FileTree} {here names : List String}
    (h : ∀ n ∈ names, FileTree.tooLong n = false) :
    root.walk here names ≠ .error .nameTooLong := by
  induction names generalizing here with
  | nil =>
    rw [FileTree.walk]
    simp
  | cons n rest ih =>
    have hrest : ∀ m ∈ rest, FileTree.tooLong m = false := fun m hm => h m (by simp [hm])
    have hn := h n (by simp)
    rw [FileTree.walk]
    split
    · simp
    · simp
    · simp only [hn, Bool.false_eq_true, if_false]
      split_ifs
      · exact ih hrest
      · exact ih hrest
      · exact ih hrest
      · simp

theorem locate_eq_nameTooLong_iff (h : ∀ n ∈ p.names, FileTree.tooLong n = false) :
    w.locate p = .error .nameTooLong ↔ maxPathBytes < Text.pathSize p.toString := by
  rw [locate]
  by_cases hlong : Text.pathSize p.toString > maxPathBytes
  · rw [if_pos hlong]
    exact ⟨fun _ => hlong, fun _ => rfl⟩
  · rw [if_neg hlong, reach, ← startOf]
    refine ⟨fun hreach => ?_, fun hmax => absurd hmax hlong⟩
    cases hwalk : w.root.walk (w.startOf p) p.names with
    | error e =>
      rw [hwalk] at hreach
      rw [Except.error.inj hreach] at hwalk
      exact absurd hwalk (walk_ne_nameTooLong h)
    | ok there =>
      simp only [hwalk] at hreach
      cases hfind : w.root.find? there with
      | none =>
        rw [hfind] at hreach
        cases hreach
      | some t =>
        rw [hfind] at hreach
        cases hreach

/-! ### What lies below a directory -/

theorem pathsBelow_eq_map_ok_iff (h : w.isDir p = .ok true) {found : List Path} :
    w.pathsBelow p = .ok (found.map .ok) ↔
      w.depthBelow p ≤ w.interpreter.walkRoom ∧ found = w.below p := by
  rw [pathsBelow, h, below, depthBelow]
  cases hloc : w.locate p with
  | error e =>
    show Except.ok [] = Except.ok (found.map Except.ok) ↔ _
    simp [eq_comm]
  | ok place =>
    obtain ⟨there, t⟩ := place
    show Except.ok ((t.visits w.interpreter.walkRoom).map _) = Except.ok (found.map Except.ok) ↔ _
    rw [Except.ok.injEq]
    constructor
    · intro hmet
      by_cases hroom : t.depth ≤ w.interpreter.walkRoom
      · rw [FileTree.visits_of_depth_le hroom, List.map_map] at hmet
        refine ⟨hroom, map_ok_inj ?_⟩
        rw [← hmet, List.map_map]
        rfl
      · have hmem := FileTree.error_mem_visits (Nat.not_le.mp hroom)
        replace hmem := hmet ▸ List.mem_map_of_mem hmem
        obtain ⟨q, -, hsame⟩ := List.mem_map.mp hmem
        cases hsame
    · rintro ⟨hroom, rfl⟩
      rw [FileTree.visits_of_depth_le hroom, List.map_map, List.map_map]
      rfl

theorem pathsBelow_eq_below {found : List Path} (h : w.pathsBelow p = .ok (found.map .ok))
    (hfound : found ≠ []) : found = w.below p := by
  have hstep := h
  rw [pathsBelow] at hstep
  obtain ⟨b, hb, hrest⟩ := bind_eq_ok_iff.mp hstep
  cases b with
  | false => exact absurd (List.map_eq_nil_iff.mp (Except.ok.inj hrest).symm) hfound
  | true => exact ((pathsBelow_eq_map_ok_iff hb).mp h).2

/-- What lies below a directory has names of files behind those of the directory. -/
theorem names_of_mem_below (hw : w.root.Proper) (hbase : ∀ n ∈ base.names, Path.IsName n)
    (hp : p ∈ w.below base) : ∀ n ∈ p.names, Path.IsName n := by
  unfold below at hp
  cases hloc : w.locate base with
  | error e =>
    rw [hloc] at hp
    cases hp
  | ok place =>
    obtain ⟨there, t⟩ := place
    rw [hloc] at hp
    obtain ⟨names, hnames, rfl⟩ := List.mem_map.mp hp
    obtain ⟨-, -, hfind⟩ := locate_eq_ok_iff.mp hloc
    intro n hn
    rcases List.mem_append.mp hn with hn | hn
    · exact hbase n hn
    · exact ((hw.find? hfind).of_mem_contents hnames n hn).isName

/-! ### Walks -/

theorem scan_eq_ok_iff {respect : Bool} :
    w.scan base patterns respect = .ok files ↔
      ∃ rules, ∃ found : List Path, (if respect then w.ignoreRules base else .ok []) = .ok rules ∧
        w.pathsBelow base = .ok (found.map .ok) ∧
        (∀ p ∈ found, ∃ b, w.keeps rules patterns base p = .ok b) ∧
        files = sortPaths (found.filter fun p => isTrue (w.keeps rules patterns base p)) := by
  have hsteps : w.scan base patterns respect = (do
      let rules ← (if respect then w.ignoreRules base else .ok [])
      let found ← w.pathsBelow base
      let kept ← keepFrom (w.keeps rules patterns base) found
      .ok (sortPaths kept)) := by
    cases respect <;> rfl
  rw [hsteps, bind_eq_ok_iff]
  constructor
  · rintro ⟨rules, hrules, hrest⟩
    obtain ⟨met, hmet, hrest⟩ := bind_eq_ok_iff.mp hrest
    obtain ⟨kept, hkept, hfiles⟩ := bind_eq_ok_iff.mp hrest
    obtain ⟨found, rfl, hall, rfl⟩ := keepFrom_eq_ok_iff.mp hkept
    exact ⟨rules, found, hrules, hmet, hall, (Except.ok.inj hfiles).symm⟩
  · rintro ⟨rules, found, hrules, hfound, hall, rfl⟩
    refine ⟨rules, hrules, bind_eq_ok_iff.mpr ⟨_, hfound, bind_eq_ok_iff.mpr ?_⟩⟩
    exact ⟨_, keepFrom_eq_ok_iff.mpr ⟨found, rfl, hall, rfl⟩, rfl⟩

theorem mem_sortPaths {ps : List Path} : p ∈ sortPaths ps ↔ p ∈ ps := List.mem_mergeSort

theorem isFile_of_keeps {rules : List Ignore.Rule} (h : w.keeps rules patterns base p = .ok true) :
    w.isFile p = .ok true := by
  rw [keeps] at h
  obtain ⟨b, hb, hrest⟩ := bind_eq_ok_iff.mp h
  cases b with
  | true => exact hb
  | false => cases hrest

/-- A walk gives files. -/
theorem isFile_of_mem_scan {respect : Bool} (h : w.scan base patterns respect = .ok files)
    (hp : p ∈ files) : w.isFile p = .ok true := by
  obtain ⟨rules, found, -, -, -, rfl⟩ := scan_eq_ok_iff.mp h
  obtain ⟨-, hkeeps⟩ := List.mem_filter.mp (mem_sortPaths.mp hp)
  exact isFile_of_keeps (isTrue_iff.mp hkeeps)

/-- A walk gives what lies below its directory. -/
theorem mem_below_of_mem_scan {respect : Bool} (h : w.scan base patterns respect = .ok files)
    (hp : p ∈ files) : p ∈ w.below base := by
  obtain ⟨rules, found, -, hfound, -, rfl⟩ := scan_eq_ok_iff.mp h
  obtain ⟨hmem, -⟩ := List.mem_filter.mp (mem_sortPaths.mp hp)
  rw [← pathsBelow_eq_below hfound (List.ne_nil_of_mem hmem)]
  exact hmem

/-- Without rules and patterns, a walk keeps every file. -/
theorem keeps_plain : w.keeps [] [] base p = w.isFile p := by
  rw [keeps]
  cases w.isFile p with
  | error e => rfl
  | ok b => cases b <;> rfl

/-- **Without rules and patterns, only a path that is too long ends a walk, or a directory inside
too many others.** -/
theorem scan_plain_eq_ok_iff (hdir : w.isDir base = .ok true) :
    w.scan base [] false = .ok files ↔
      w.depthBelow base ≤ w.interpreter.walkRoom ∧ (∀ p ∈ w.below base, w.Lookable p) ∧
        files = sortPaths ((w.below base).filter w.isThere) := by
  rw [scan_eq_ok_iff]
  constructor
  · rintro ⟨rules, found, hrules, hfound, hall, rfl⟩
    obtain rfl := Except.ok.inj hrules
    obtain ⟨hroom, rfl⟩ := (pathsBelow_eq_map_ok_iff hdir).mp hfound
    simp only [keeps_plain] at hall ⊢
    exact ⟨hroom, hall, rfl⟩
  · rintro ⟨hroom, hall, rfl⟩
    refine ⟨[], w.below base, rfl, (pathsBelow_eq_map_ok_iff hdir).mpr ⟨hroom, rfl⟩, ?_, ?_⟩
    · simp only [keeps_plain]
      exact hall
    · simp only [keeps_plain]
      rfl

end Workspace

end LintHost
