/-
Two spellings of one place.

A directory can be spelled in many ways, and a walk spells what it finds below a directory as the
directory was spelled: `behind` puts the names that were found behind those of the directory.  Where
two spellings lead to one place, `LeadsTo`, the same names behind them lead to one place as well.
So a look at what lies there, the rules of the directory, and the order of what is found are the
same under both, and all that is left of the spelling is what the patterns see of it:
`scan_eq_map_kept` and `kept_congr`.

Each spelling has to be short enough to be followed, with all that stands behind it.
-/
import LintHost.Proofs.Walk
import Mathlib.Data.String.Basic
import Mathlib.Order.Monotone.Basic

namespace LintHost

namespace Path

/-- The path followed by names. -/
def behind (p : Path) (names : List String) : Path := ⟨p.root, p.names ++ names⟩

variable {p : Path} {names : List String}

/-- Double points are removed in front first, and then behind. -/
theorem collapseOnto_collapseOnto {done front : List String} :
    collapseOnto done (front ++ names) = collapseOnto (collapseOnto done front).reverse names := by
  induction front generalizing done with
  | nil => rw [List.nil_append, collapseOnto, List.reverse_reverse]
  | cons n rest ih =>
    rw [List.cons_append, collapseOnto, collapseOnto]
    split_ifs
    · exact ih
    · exact ih

theorem normalize_names_behind (cwd p : Path) (names : List String) :
    normalize cwd (p.behind names) =
      ⟨(normalize cwd p).root, collapseOnto (normalize cwd p).names.reverse names⟩ := by
  unfold normalize behind
  by_cases hroot : p.root = .relative
  · simp only [if_pos hroot]
    rw [join, join, if_pos hroot, if_pos hroot, ← List.append_assoc]
    exact congrArg _ collapseOnto_collapseOnto
  · simp only [if_neg hroot]
    exact congrArg _ collapseOnto_collapseOnto

/-- Names without double points stay behind a path when it is made normal. -/
theorem normalize_behind (cwd p : Path) (h : up ∉ names) :
    normalize cwd (p.behind names) = (normalize cwd p).behind names := by
  rw [normalize_names_behind, collapseOnto_of_clean _ _ h, List.reverse_reverse, behind]

theorem name_behind (p : Path) (hne : names ≠ []) :
    (p.behind names).name = names.getLast?.getD "" := by
  rw [name, behind, List.getLast?_append_of_ne_nil p.names hne]

/-! ### The order of spellings -/

theorem joinNames_append {front : List String} (hfront : front ≠ []) (hne : names ≠ []) :
    joinNames (front ++ names) = joinNames front ++ '/' :: joinNames names := by
  fun_induction joinNames front with
  | case1 => exact absurd rfl hfront
  | case2 n =>
    obtain ⟨m, rest, rfl⟩ := List.exists_cons_of_ne_nil hne
    rfl
  | case3 n rest hrest ih =>
    have hmore : rest ++ names ≠ [] := by simp [hne]
    rw [List.cons_append, joinNames, ih hrest, List.append_assoc]
    · rfl
    · exact hmore

/-- What stands in front of the names behind a path, when it is spelled with them. -/
def lead (p : Path) : List Char :=
  rootText p.root ++ if p.names = [] then [] else joinNames p.names ++ ['/']

theorem toList_toString_behind (p : Path) (hne : names ≠ []) :
    (p.behind names).toString.toList = p.lead ++ joinNames names := by
  rw [toString, if_neg (by simp [behind, hne]), String.toList_ofList, behind, lead]
  by_cases hnames : p.names = []
  · rw [if_pos hnames, hnames, List.nil_append, List.append_nil]
  · rw [if_neg hnames, joinNames_append hnames hne]
    simp

/-- Names behind one path stand in an order that has nothing to do with the path. -/
theorem toString_behind_le_iff {names' : List String} (p : Path) (hne : names ≠ [])
    (hne' : names' ≠ []) :
    (p.behind names).toString ≤ (p.behind names').toString ↔
      joinNames names ≤ joinNames names' := by
  have hmono : StrictMono fun s : List Char => p.lead ++ s := fun _ _ h => List.append_left_lt h
  rw [String.le_iff_toList_le, toList_toString_behind p hne, toList_toString_behind p hne']
  exact hmono.le_iff_le

end Path

namespace FileTree

theorem contentsOf_eq_flatMap (es : List (String × FileTree)) :
    contentsOf es = es.flatMap fun e => e.2.contents.map (e.1 :: ·) := by
  induction es with
  | nil => rfl
  | cons e rest ih => rw [contentsOf, List.flatMap_cons, ih]

theorem ne_nil_of_mem_contents {t : FileTree} {names : List String} (h : names ∈ t.contents) :
    names ≠ [] := by
  cases t with
  | file f => cases h
  | dir es =>
    rw [contents, contentsOf_eq_flatMap] at h
    rcases List.mem_append.mp h with hhere | hthere
    · obtain ⟨e, -, rfl⟩ := List.mem_map.mp hhere
      exact List.cons_ne_nil _ _
    · obtain ⟨e, -, hbelow⟩ := List.mem_flatMap.mp hthere
      obtain ⟨below, -, rfl⟩ := List.mem_map.mp hbelow
      exact List.cons_ne_nil _ _

/-- **A walk meets everything that there is below its directory.** -/
theorem mem_contents_of_find? {t s : FileTree} {names : List String}
    (h : t.find? names = some s) (hne : names ≠ []) : names ∈ t.contents := by
  induction names generalizing t with
  | nil => exact absurd rfl hne
  | cons n rest ih =>
    rw [find?] at h
    cases t with
    | file f => cases h
    | dir es =>
      cases hlookup : es.lookup n with
      | none =>
        rw [entries, hlookup] at h
        cases h
      | some below =>
        rw [entries, hlookup] at h
        obtain ⟨front, back, rfl, -⟩ := List.lookup_eq_some_iff.mp hlookup
        rw [contents, contentsOf_eq_flatMap]
        cases rest with
        | nil => exact List.mem_append_left _ (List.mem_map.mpr ⟨(n, below), by simp, rfl⟩)
        | cons m more =>
          have hbelow := ih h (List.cons_ne_nil m more)
          refine List.mem_append_right _ (List.mem_flatMap.mpr ⟨(n, below), by simp, ?_⟩)
          exact List.mem_map_of_mem hbelow

end FileTree

namespace Workspace

open Outcome

/-- A path leads to a place in the tree, and to what lies there. -/
structure LeadsTo (w : Workspace) (p : Path) (place : List String) (t : FileTree) : Prop where
  spellable : Spellable p.toString
  located : w.locate p = .ok (place, t)

/-- Is short enough to be followed. -/
abbrev Fits (p : Path) : Prop := Text.pathSize p.toString ≤ maxPathBytes

variable {w : Workspace} {p q : Path} {place names : List String} {t : FileTree}

theorem leadsTo_of_test {holds : FileTree → Bool} (h : w.test p holds = .ok true) :
    ∃ place t, w.LeadsTo p place t ∧ holds t = true := by
  rw [test] at h
  cases hfault : pathFault? p.toString with
  | some e =>
    rw [hfault] at h
    cases h
  | none =>
    rw [hfault] at h
    cases hloc : w.locate p with
    | error e =>
      rw [hloc] at h
      cases e <;> cases h
    | ok there =>
      rw [hloc] at h
      exact ⟨_, _, ⟨pathFault?_eq_none_iff.mp hfault, hloc⟩, Except.ok.inj h⟩

namespace LeadsTo

theorem test (h : w.LeadsTo p place t) (holds : FileTree → Bool) :
    w.test p holds = .ok (holds t) := test_of_locate h.spellable h.located holds

theorem openFile {f : File} (h : w.LeadsTo p place (.file f)) : w.openFile p = .ok f :=
  openFile_eq_ok_iff.mpr ⟨h.spellable, place, h.located⟩

theorem proper (hw : w.Sound) (h : w.LeadsTo p place t) : t.Proper := by
  obtain ⟨-, -, hfind⟩ := locate_eq_ok_iff.mp h.located
  exact hw.proper.find? hfind

/-- **The normal form of a path leads where the path leads.** -/
theorem normalize (hw : w.Sound) (hp : ∀ n ∈ p.names, Path.IsName n) (h : w.LeadsTo p place t)
    (hfits : Fits (w.normalize p)) : w.LeadsTo (w.normalize p) place t := by
  obtain ⟨-, hwalk, hfind⟩ := locate_eq_ok_iff.mp h.located
  have hplace : (w.normalize p).names = place := by
    rw [hw.normalize_names, FileTree.walk_eq_collapseOnto hp hwalk]
  have hnames : ∀ n ∈ (w.normalize p).names, FileName n := by
    rw [hplace]
    exact hw.proper.of_find? hfind
  refine ⟨Path.spellable_toString.mpr fun n hn => (hnames n hn).spellable, ?_⟩
  rw [← hplace] at hfind ⊢
  exact locate_of_find? (hw.normal hp) hnames hfind hfits

/-! ### Names behind two spellings -/

theorem locate_behind (h : w.LeadsTo p place t) (hfits : Fits (p.behind names)) :
    w.locate (p.behind names) = w.reach place names := by
  obtain ⟨-, hwalk, -⟩ := locate_eq_ok_iff.mp h.located
  have hstart : w.startOf (p.behind names) = w.startOf p := rfl
  rw [locate, if_neg (Nat.not_lt.mpr hfits), ← startOf, hstart, Path.behind, reach, reach,
    FileTree.walk_append, hwalk]
  rfl

theorem spellable_behind (h : w.LeadsTo p place t) (hn : ∀ n ∈ names, FileName n) :
    Spellable (p.behind names).toString := by
  rw [Path.spellable_toString]
  intro n hmem
  rcases List.mem_append.mp hmem with hmem | hmem
  · exact Path.spellable_toString.mp h.spellable n hmem
  · exact (hn n hmem).spellable

theorem reach_of_find? (h : w.LeadsTo p place t) (hn : ∀ n ∈ names, FileName n) {s : FileTree}
    (hs : t.find? names = some s) : w.reach place names = .ok (place ++ names, s) := by
  obtain ⟨-, -, hplace⟩ := locate_eq_ok_iff.mp h.located
  have hfind : w.root.find? (place ++ names) = some s := by
    rw [FileTree.find?_append, hplace]
    exact hs
  rw [reach, FileTree.walk_of_find? hn hfind]
  simp only [hfind]

theorem reach_of_gone (h : w.LeadsTo p place t) (hn : ∀ n ∈ names, FileName n)
    (hnone : t.find? names = none) : ∃ e, w.reach place names = .error e ∧ e ≠ .nameTooLong := by
  obtain ⟨-, -, hplace⟩ := locate_eq_ok_iff.mp h.located
  rw [reach]
  cases hwalk : w.root.walk place names with
  | error e =>
    refine ⟨e, rfl, ?_⟩
    rintro rfl
    exact walk_ne_nameTooLong (fun n hmem => (hn n hmem).notTooLong) hwalk
  | ok there =>
    have hclean : Path.up ∉ names := fun hup => (hn _ hup).notUp rfl
    have hthere : there = place ++ names := by
      rw [FileTree.walk_eq_collapseOnto (fun n hmem => (hn n hmem).isName) hwalk,
        Path.collapseOnto_of_clean _ _ hclean, List.reverse_reverse]
    have hgone : w.root.find? there = none := by
      rw [hthere, FileTree.find?_append, hplace]
      exact hnone
    simp only [hgone]
    exact ⟨_, rfl, by decide⟩

/-- **What a test finds at names behind a spelling of a place is what lies there.** -/
theorem test_behind (h : w.LeadsTo p place t) (hn : ∀ n ∈ names, FileName n)
    (hfits : Fits (p.behind names)) (holds : FileTree → Bool) :
    w.test (p.behind names) holds = .ok ((t.find? names).any holds) := by
  rw [Workspace.test, pathFault?_eq_none_iff.mpr (h.spellable_behind hn), h.locate_behind hfits]
  cases hfind : t.find? names with
  | some s =>
    rw [h.reach_of_find? hn hfind]
    rfl
  | none =>
    obtain ⟨e, he, hshort⟩ := h.reach_of_gone hn hfind
    rw [he]
    cases e with
    | nameTooLong => exact absurd rfl hshort
    | _ => rfl

/-- A file behind two spellings of one place is opened under both. -/
theorem openFile_behind (hp : w.LeadsTo p place t) (hq : w.LeadsTo q place t)
    (hn : ∀ n ∈ names, FileName n) (hfits : Fits (p.behind names)) (hfits' : Fits (q.behind names))
    (hfile : w.isFile (p.behind names) = .ok true) :
    w.openFile (p.behind names) = w.openFile (q.behind names) := by
  obtain ⟨hspell, there, f, hloc⟩ := isFile_eq_true_iff.mp hfile
  have hloc' : w.locate (q.behind names) = .ok (there, .file f) := by
    rw [hq.locate_behind hfits', ← hp.locate_behind hfits, hloc]
  rw [openFile_eq_ok_iff.mpr ⟨hspell, there, hloc⟩,
    openFile_eq_ok_iff.mpr ⟨hq.spellable_behind hn, there, hloc'⟩]

/-- Two spellings of a directory have the same rules. -/
theorem ignoreRules_congr (hp : w.LeadsTo p place t) (hq : w.LeadsTo q place t)
    (hfits : Fits (p.child ignoreFileName)) (hfits' : Fits (q.child ignoreFileName)) :
    w.ignoreRules p = w.ignoreRules q := by
  have hn : ∀ n ∈ [ignoreFileName], FileName n := by decide
  have hlook : w.isFile (p.child ignoreFileName) = w.isFile (q.child ignoreFileName) :=
    (hp.test_behind hn hfits FileTree.isFile).trans
      (hq.test_behind hn hfits' FileTree.isFile).symm
  rw [ignoreRules, ignoreRules, ← hlook]
  cases hfile : w.isFile (p.child ignoreFileName) with
  | error e => rfl
  | ok b =>
    cases b with
    | false => rfl
    | true =>
      have hopen : w.openFile (p.child ignoreFileName) = w.openFile (q.child ignoreFileName) :=
        hp.openFile_behind hq hn hfits hfits' hfile
      rw [readText, readText, hopen]

end LeadsTo

/-! ### Walks -/

/-- Names in the order of a walk. -/
def sortNames (found : List (List String)) : List (List String) :=
  found.mergeSort fun a b => decide (Path.joinNames a ≤ Path.joinNames b)

theorem sortPaths_map_behind (p : Path) {found : List (List String)}
    (h : ∀ names ∈ found, names ≠ []) :
    sortPaths (found.map p.behind) = (sortNames found).map p.behind := by
  refine (List.map_mergeSort fun a ha b hb => ?_).symm
  exact decide_eq_decide.mpr (Path.toString_behind_le_iff p (h a ha) (h b hb)).symm

/-- The rules that a walk goes by. -/
def rulesFor (w : Workspace) (p : Path) (respect : Bool) : Except Failure (List Ignore.Rule) :=
  if respect then w.ignoreRules p else .ok []

/-- The names below a directory that a walk keeps. -/
def kept (w : Workspace) (p : Path) (t : FileTree) (patterns : List String) (respect : Bool) :
    Except Failure (List (List String)) := do
  let rules ← w.rulesFor p respect
  let found ← keepFrom (fun names => w.keeps rules patterns p (p.behind names))
    (t.visits w.interpreter.walkRoom)
  .ok (sortNames found)

variable {patterns : List String} {respect : Bool}

theorem kept_eq_ok_iff {found : List (List String)} :
    w.kept p t patterns respect = .ok found ↔
      ∃ rules, w.rulesFor p respect = .ok rules ∧ t.depth ≤ w.interpreter.walkRoom ∧
        (∀ names ∈ t.contents, ∃ b, w.keeps rules patterns p (p.behind names) = .ok b) ∧
        found = sortNames (t.contents.filter fun names =>
          isTrue (w.keeps rules patterns p (p.behind names))) := by
  rw [kept, bind_eq_ok_iff]
  refine exists_congr fun rules => and_congr_right fun _ => ?_
  rw [bind_eq_ok_iff]
  constructor
  · rintro ⟨chosen, hchosen, hsorted⟩
    obtain ⟨met, hmet, hall, rfl⟩ := keepFrom_eq_ok_iff.mp hchosen
    obtain ⟨hroom, rfl⟩ := FileTree.visits_eq_map_ok_iff.mp hmet
    exact ⟨hroom, hall, (Except.ok.inj hsorted).symm⟩
  · rintro ⟨hroom, hall, rfl⟩
    have hmet := FileTree.visits_eq_map_ok_iff.mpr ⟨hroom, rfl⟩
    exact ⟨_, keepFrom_eq_ok_iff.mpr ⟨_, hmet, hall, rfl⟩, rfl⟩

theorem mem_contents_of_mem_kept {found : List (List String)}
    (h : w.kept p t patterns respect = .ok found) : ∀ names ∈ found, names ∈ t.contents := by
  obtain ⟨rules, -, -, -, rfl⟩ := kept_eq_ok_iff.mp h
  exact fun names hmem => (List.mem_filter.mp (List.mem_mergeSort.mp hmem)).1

/-- **A walk gives the names that it keeps, behind the spelling it was asked for.** -/
theorem scan_eq_map_kept (h : w.LeadsTo p place t) (hdir : t.isDir = true)
    (patterns : List String) (respect : Bool) :
    w.scan p patterns respect = List.map p.behind <$> w.kept p t patterns respect := by
  have hisDir : w.isDir p = .ok true := (h.test FileTree.isDir).trans (congrArg _ hdir)
  have hbelow : w.pathsBelow p =
      .ok ((t.visits w.interpreter.walkRoom).map (Except.map p.behind)) := by
    rw [pathsBelow, hisDir, h.located]
    rfl
  have hsteps : w.scan p patterns respect = (do
      let rules ← w.rulesFor p respect
      let found ← w.pathsBelow p
      let chosen ← keepFrom (w.keeps rules patterns p) found
      .ok (sortPaths chosen)) := by
    cases respect <;> rfl
  rw [hsteps, kept, hbelow]
  cases w.rulesFor p respect with
  | error e => rfl
  | ok rules =>
    show (keepFrom (w.keeps rules patterns p)
        ((t.visits w.interpreter.walkRoom).map (Except.map p.behind)) >>= fun chosen =>
          .ok (sortPaths chosen)) =
      List.map p.behind <$> (keepFrom (fun names => w.keeps rules patterns p (p.behind names))
        (t.visits w.interpreter.walkRoom) >>= fun found => .ok (sortNames found))
    rw [keepFrom_map]
    cases hchosen : keepFrom (fun names => w.keeps rules patterns p (p.behind names))
        (t.visits w.interpreter.walkRoom) with
    | error e => rfl
    | ok found =>
      obtain ⟨met, hmet, -, rfl⟩ := keepFrom_eq_ok_iff.mp hchosen
      obtain ⟨-, rfl⟩ := FileTree.visits_eq_map_ok_iff.mp hmet
      refine congrArg Except.ok (sortPaths_map_behind p fun names hmem => ?_)
      exact FileTree.ne_nil_of_mem_contents (List.mem_filter.mp hmem).1

theorem spellingBelow_behind (p : Path) :
    spellingBelow p (p.behind names) = Path.joinNames names := by
  rw [spellingBelow, Path.behind, List.drop_left]

/-- **Two spellings keep the same names, if the patterns exclude the same files under both.** -/
theorem kept_congr (hw : w.Sound) (hp : w.LeadsTo p place t) (hq : w.LeadsTo q place t)
    (hfits : ∀ names ∈ t.contents, Fits (p.behind names) ∧ Fits (q.behind names))
    (hrules : respect = true → Fits (p.child ignoreFileName) ∧ Fits (q.child ignoreFileName))
    (hexcluded : ∀ names ∈ t.contents, w.isFile (p.behind names) = .ok true →
      excluded (p.behind names) patterns = excluded (q.behind names) patterns) :
    w.kept p t patterns respect = w.kept q t patterns respect := by
  have hsame : w.rulesFor p respect = w.rulesFor q respect := by
    rw [rulesFor, rulesFor]
    split_ifs with hrespect
    · exact hp.ignoreRules_congr hq (hrules hrespect).1 (hrules hrespect).2
    · rfl
  have hkeeps : ∀ rules, ∀ names ∈ t.contents,
      w.keeps rules patterns p (p.behind names) = w.keeps rules patterns q (q.behind names) := by
    intro rules names hmem
    have hn := (hp.proper hw).of_mem_contents hmem
    have hlook : w.isFile (p.behind names) = w.isFile (q.behind names) :=
      (hp.test_behind hn (hfits names hmem).1 FileTree.isFile).trans
        (hq.test_behind hn (hfits names hmem).2 FileTree.isFile).symm
    rw [keeps, keeps, ← hlook]
    cases hfile : w.isFile (p.behind names) with
    | error e => rfl
    | ok b =>
      cases b with
      | false => rfl
      | true =>
        show leaves rules patterns p (p.behind names) = leaves rules patterns q (q.behind names)
        rw [leaves, leaves, spellingBelow_behind, spellingBelow_behind, hexcluded names hmem hfile]
  rw [kept, kept, ← hsame]
  congr 1
  funext rules
  rw [keepFrom_congr fun names hmet =>
    hkeeps rules names (FileTree.mem_contents_of_mem_visits hmet)]

end Workspace

end LintHost
