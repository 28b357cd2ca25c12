/-
The units of a directory.

A walk meets everything that there is below its directory and keeps the files that the rules of the
directory and the patterns leave.  What comes of it is exact, `mem_unitsBelow`: a path is a unit of
the directory where it is the normal form of a source file at any depth below it, and no filter has
taken the file.  The walk sorts the paths as it spells them and they are made normal after that, but
the spelling of the directory stands in front of all of them, before and after, so that the units
stand in the order of their own spellings, `precedes_unitsBelow`.

Order and exactness together tell a list of units by what is in it.  So a filter takes units away
and does nothing else, and two filters leave what each of them leaves.

All of this is for a walk that comes to its end.  For that there has to be room for all directories
inside each other, and everything below the directory has to be short enough to be looked at, under
the spelling of the directory.  `unresolved_root_of_buried` is a file that is not, in a tree that
can be.
-/
import LintHost.Proofs.Target.Spelling
import Mathlib.Data.List.Sort

namespace LintHost

open Outcome

/-! ### Paths in order -/

/-- Stands in front of another path in the order of spellings. -/
def Path.Precedes (p q : Path) : Prop := p.toString < q.toString

instance : Std.Irrefl Path.Precedes := ⟨fun p => lt_irrefl p.toString⟩

instance : Std.Antisymm Path.Precedes := ⟨fun _ _ h h' => absurd h (lt_asymm h')⟩

/-- One list of paths in order lies in another, if all that it holds does. -/
theorem Path.sublist_of_precedes {ps qs : List Path} (hps : ps.Pairwise Path.Precedes)
    (hqs : qs.Pairwise Path.Precedes) (h : ∀ p ∈ ps, p ∈ qs) : ps.Sublist qs :=
  List.sublist_of_subperm_of_pairwise (List.subperm_of_subset hps.nodup h) hps hqs

theorem dedupeAfter_sublist {α : Type} [DecidableEq α] (seen xs : List α) :
    (dedupeAfter seen xs).Sublist xs := by
  induction xs generalizing seen with
  | nil => exact List.Sublist.slnil
  | cons x rest ih =>
    rw [dedupeAfter]
    split_ifs
    · exact (ih seen).cons x
    · exact (ih (x :: seen)).cons_cons x

/-! ### What a walk keeps -/

namespace Workspace

variable {w : Workspace} {p : Path} {place names : List String} {t : FileTree}
  {patterns : List String}

theorem LeadsTo.lookable_behind_iff (h : w.LeadsTo p place t) (hn : ∀ n ∈ names, FileName n) :
    w.Lookable (p.behind names) ↔ Fits (p.behind names) := by
  constructor
  · intro hlook
    by_contra hlong
    exact lookable_iff.mp hlook ⟨h.spellable_behind hn, if_pos (Nat.not_le.mp hlong)⟩
  · intro hfits
    exact ⟨_, h.test_behind hn hfits FileTree.isFile⟩

theorem LeadsTo.below_eq (h : w.LeadsTo p place t) : w.below p = t.contents.map p.behind := by
  rw [below, h.located]
  rfl

/-- Patterns that all have parts exclude what one of them matches. -/
theorem excluded_eq_any (h : ∀ pattern ∈ patterns, Glob.isBlankPattern pattern = false) (q : Path) :
    excluded q patterns = .ok (patterns.any fun pattern => Glob.matchesPath pattern q) := by
  induction patterns with
  | nil => rfl
  | cons pattern rest ih =>
    rw [excluded, h pattern (by simp), if_neg (by simp), List.any_cons,
      ih fun r hr => h r (by simp [hr])]
    cases Glob.matchesPath pattern q <;> rfl

/-- What the rules and the patterns leave, where both of them answer. -/
theorem leaves_eq_ok {rules : List Ignore.Rule} {base q : Path} {ignored : Bool}
    (hrules : Ignore.ignores rules (spellingBelow base q) = .ok ignored)
    (hpatterns : ∀ pattern ∈ patterns, Glob.isBlankPattern pattern = false) :
    leaves rules patterns base q =
      .ok (!ignored && !patterns.any fun pattern => Glob.matchesPath pattern q) := by
  have hsteps : leaves rules patterns base q =
      (if rules.isEmpty then .ok false
        else (Ignore.ignores rules (spellingBelow base q)).mapError Failure.ignoreRule) >>=
      fun ignored => if ignored then .ok false else (do .ok !(← excluded q patterns)) := by
    cases rules <;> rfl
  have hasked : (if rules.isEmpty then .ok false
      else (Ignore.ignores rules (spellingBelow base q)).mapError Failure.ignoreRule) =
        .ok ignored := by
    cases rules with
    | nil => exact congrArg Except.ok (Except.ok.inj hrules)
    | cons r rest =>
      rw [hrules]
      rfl
  rw [hsteps, hasked, excluded_eq_any hpatterns]
  cases ignored <;> rfl

theorem sortNames_pairwise (found : List (List String)) :
    (sortNames found).Pairwise fun a b => Path.joinNames a ≤ Path.joinNames b := by
  have htrans : ∀ a b c : List String, decide (Path.joinNames a ≤ Path.joinNames b) = true →
      decide (Path.joinNames b ≤ Path.joinNames c) = true →
      decide (Path.joinNames a ≤ Path.joinNames c) = true := by
    intro a b c hab hbc
    exact decide_eq_true (le_trans (of_decide_eq_true hab) (of_decide_eq_true hbc))
  have htotal : ∀ a b : List String, (decide (Path.joinNames a ≤ Path.joinNames b) ||
      decide (Path.joinNames b ≤ Path.joinNames a)) = true := by
    intro a b
    rw [Bool.or_eq_true, decide_eq_true_eq, decide_eq_true_eq]
    exact le_total _ _
  exact (List.pairwise_mergeSort htrans htotal found).imp of_decide_eq_true

end Workspace

namespace Target

open Workspace

variable {w : Workspace} {c : TargetsConfig} {target : String} {p u : Path}
  {place names : List String} {t : FileTree} {ignored : List String → Bool} {units : List Path}

/-- There is a file at these names below the directory that a path leads to. -/
def HoldsFile (w : Workspace) (p : Path) (names : List String) : Prop :=
  ∃ f, w.root.find? ((w.normalize p).names ++ names) = some (.file f)

/-- A walk goes by the rules of its directory: it is to go by them, and the directory has some. -/
def goesByRules (w : Workspace) (c : TargetsConfig) (p : Path) : Bool :=
  c.respectGitignore && w.isThere (p.child ignoreFileName)

/-- Whatever filters the files of a directory answers: the patterns have parts, and the rules tell
of each file whether they ignore it. -/
structure Answers (w : Workspace) (c : TargetsConfig) (p : Path)
    (ignored : List String → Bool) : Prop where
  patterns : ∀ pattern ∈ c.excludePatterns, Glob.isBlankPattern pattern = false
  rules : goesByRules w c p = true → ∃ rules, w.ignoreRules p = .ok rules ∧
    ∀ names, HoldsFile w p names →
      Ignore.ignores rules (Path.joinNames names) = .ok (ignored names)

/-- A walk has room for the directories that it goes into, and everything that it looks at is short
enough. -/
structure WalkFits (w : Workspace) (c : TargetsConfig) (p : Path) : Prop where
  room : w.depthBelow p ≤ w.interpreter.walkRoom
  below : ∀ q ∈ w.below p, Fits q
  rules : c.respectGitignore = true → Fits (p.child ignoreFileName)

/-- Whether the filters leave a file below a directory. -/
def passesFilters (w : Workspace) (c : TargetsConfig) (p : Path) (ignored : List String → Bool)
    (names : List String) : Bool :=
  !(goesByRules w c p && ignored names) &&
    !c.excludePatterns.any fun pattern => Glob.matchesPath pattern (p.behind names)

/-- The names below a directory that a walk keeps. -/
def keptBelow (w : Workspace) (c : TargetsConfig) (p : Path) (ignored : List String → Bool)
    (t : FileTree) : List (List String) :=
  sortNames (t.contents.filter fun names =>
    (t.find? names).any FileTree.isFile && passesFilters w c p ignored names)

/-- The units of a directory. -/
def unitsBelow (w : Workspace) (c : TargetsConfig) (p : Path) (ignored : List String → Bool)
    (t : FileTree) : List Path :=
  dedupe (((keptBelow w c p ignored t).filter fun names => isSource c (Path.here.behind names)).map
    (w.normalize p).behind)

/-! ### When a walk comes to its end -/

theorem find?_normalize_append (hw : w.Sound) (hp : ∀ n ∈ p.names, Path.IsName n)
    (h : w.LeadsTo p place t) (names : List String) :
    w.root.find? ((w.normalize p).names ++ names) = t.find? names := by
  rw [FileTree.find?_append, hw.locate hp h.located]
  rfl

theorem holdsFile_iff (hw : w.Sound) (hp : ∀ n ∈ p.names, Path.IsName n)
    (h : w.LeadsTo p place t) :
    HoldsFile w p names ↔ (t.find? names).any FileTree.isFile = true := by
  rw [HoldsFile, find?_normalize_append hw hp h]
  cases t.find? names with
  | none => simp
  | some s => cases s <;> simp [FileTree.isFile]

/-- **A walk meets every file below its directory.** -/
theorem mem_contents_of_holdsFile (hw : w.Sound) (hp : ∀ n ∈ p.names, Path.IsName n)
    (h : w.LeadsTo p place t) (hdir : t.isDir = true) (hfile : HoldsFile w p names) :
    names ∈ t.contents := by
  obtain ⟨f, hf⟩ := hfile
  rw [find?_normalize_append hw hp h] at hf
  refine FileTree.mem_contents_of_find? hf ?_
  rintro rfl
  -- The directory itself is no file.
  obtain rfl := Option.some.inj hf
  cases hdir

/-- The rules of a directory are there for a walk where their file can be looked at. -/
theorem Answers.exists_rulesFor_iff (ha : Answers w c p ignored) (h : w.LeadsTo p place t) :
    (∃ rules, w.rulesFor p c.respectGitignore = .ok rules) ↔
      (c.respectGitignore = true → Fits (p.child ignoreFileName)) := by
  have hn : ∀ n ∈ [ignoreFileName], FileName n := by decide
  have hlook : w.Lookable (p.child ignoreFileName) ↔ Fits (p.child ignoreFileName) :=
    h.lookable_behind_iff hn
  rw [← hlook, rulesFor]
  cases hrespect : c.respectGitignore with
  | false => simp
  | true =>
    have hall : (true = true → w.Lookable (p.child ignoreFileName)) ↔
        w.Lookable (p.child ignoreFileName) := by simp
    rw [if_pos rfl, hall]
    constructor
    · rintro ⟨rules, hrules⟩
      obtain ⟨b, hb, -⟩ := bind_eq_ok_iff.mp hrules
      exact ⟨b, hb⟩
    · rintro ⟨b, hb⟩
      cases b with
      | false =>
        rw [ignoreRules, hb]
        exact ⟨[], rfl⟩
      | true =>
        have hgoes : goesByRules w c p = true := by
          rw [goesByRules, hrespect, isThere_of_isFile hb]
          rfl
        obtain ⟨rules, hrules, -⟩ := ha.rules hgoes
        exact ⟨rules, hrules⟩

/-- What the rules of a walk ignore. -/
theorem Answers.ignores_eq (ha : Answers w c p ignored) {rules : List Ignore.Rule}
    (hrules : w.rulesFor p c.respectGitignore = .ok rules) (hfile : HoldsFile w p names) :
    Ignore.ignores rules (Path.joinNames names) = .ok (goesByRules w c p && ignored names) := by
  cases hgoes : goesByRules w c p with
  | true =>
    obtain ⟨hrespect, -⟩ := (Bool.and_eq_true _ _).mp hgoes
    obtain ⟨found, hfound, hasked⟩ := ha.rules hgoes
    rw [rulesFor, if_pos hrespect, hfound] at hrules
    rw [← Except.ok.inj hrules]
    exact hasked names hfile
  | false =>
    -- There are no rules then, and none ignore nothing.
    have hnone : rules = [] := by
      rw [rulesFor] at hrules
      split_ifs at hrules with hrespect
      · obtain ⟨b, hb, hrest⟩ := bind_eq_ok_iff.mp hrules
        rw [goesByRules, hrespect, isThere_of_isFile hb] at hgoes
        cases b with
        | true => cases hgoes
        | false => exact (Except.ok.inj hrest).symm
      · exact (Except.ok.inj hrules).symm
    subst hnone
    rfl

/-- What a walk keeps of the names below its directory. -/
theorem Answers.keeps_eq (hw : w.Sound) (hp : ∀ n ∈ p.names, Path.IsName n)
    (ha : Answers w c p ignored) (h : w.LeadsTo p place t) {rules : List Ignore.Rule}
    (hrules : w.rulesFor p c.respectGitignore = .ok rules) (hn : ∀ n ∈ names, FileName n)
    (hfits : Fits (p.behind names)) :
    w.keeps rules c.excludePatterns p (p.behind names) =
      .ok ((t.find? names).any FileTree.isFile && passesFilters w c p ignored names) := by
  have hlook : w.isFile (p.behind names) = .ok ((t.find? names).any FileTree.isFile) :=
    h.test_behind hn hfits FileTree.isFile
  rw [keeps, hlook]
  cases hfile : (t.find? names).any FileTree.isFile with
  | false => rfl
  | true =>
    have hasked := ha.ignores_eq hrules ((holdsFile_iff hw hp h).mpr hfile)
    rw [← spellingBelow_behind p] at hasked
    exact leaves_eq_ok hasked ha.patterns

/-- **A walk with filters that answer comes to its end where there is room for it and all that it
meets is short enough.** -/
theorem Answers.kept_eq_ok_iff (hw : w.Sound) (hp : ∀ n ∈ p.names, Path.IsName n)
    (ha : Answers w c p ignored) (h : w.LeadsTo p place t) {found : List (List String)} :
    w.kept p t c.excludePatterns c.respectGitignore = .ok found ↔
      WalkFits w c p ∧ found = keptBelow w c p ignored t := by
  have hn : ∀ names ∈ t.contents, ∀ n ∈ names, FileName n :=
    fun names hmem => (h.proper hw).of_mem_contents hmem
  have hdepth : w.depthBelow p = t.depth := by
    rw [depthBelow, h.located]
  rw [Workspace.kept_eq_ok_iff]
  constructor
  · rintro ⟨rules, hrules, hroom, hall, rfl⟩
    have hfits : ∀ names ∈ t.contents, Fits (p.behind names) := by
      intro names hmem
      obtain ⟨b, hb⟩ := hall names hmem
      obtain ⟨looked, hlooked, -⟩ := bind_eq_ok_iff.mp hb
      exact (h.lookable_behind_iff (hn names hmem)).mp ⟨looked, hlooked⟩
    refine ⟨⟨hdepth ▸ hroom, ?_, (ha.exists_rulesFor_iff h).mp ⟨rules, hrules⟩⟩, ?_⟩
    · rw [h.below_eq, List.forall_mem_map]
      exact hfits
    rw [keptBelow]
    congr 1
    refine List.filter_congr fun names hmem => ?_
    rw [ha.keeps_eq hw hp h hrules (hn names hmem) (hfits names hmem)]
    rfl
  · rintro ⟨hshort, rfl⟩
    obtain ⟨rules, hrules⟩ := (ha.exists_rulesFor_iff h).mpr hshort.rules
    have hfits : ∀ names ∈ t.contents, Fits (p.behind names) :=
      fun names hmem => hshort.below _ (h.below_eq ▸ List.mem_map_of_mem hmem)
    have hkeeps := fun names hmem => ha.keeps_eq hw hp h hrules (hn names hmem) (hfits names hmem)
    refine ⟨rules, hrules, hdepth ▸ hshort.room, fun names hmem => ⟨_, hkeeps names hmem⟩, ?_⟩
    rw [keptBelow]
    congr 1
    refine List.filter_congr fun names hmem => ?_
    rw [hkeeps names hmem]
    rfl

/-! ### The units of a directory -/

/-- **A directory with filters that answer is resolved where a walk comes to its end.** -/
theorem Answers.resolve_eq_ok_iff (hw : w.Sound) (h : w.LeadsTo (Path.ofString target) place t)
    (hdir : t.isDir = true) (ha : Answers w c (Path.ofString target) ignored) :
    (resolve w c target).outcome = .ok units ↔
      WalkFits w c (Path.ofString target) ∧
        units = unitsBelow w c (Path.ofString target) ignored t := by
  have hp : ∀ n ∈ (Path.ofString target).names, Path.IsName n :=
    fun n hn => Path.isName_of_mem_ofString hn
  cases t with
  | file f => cases hdir
  | dir es =>
    rw [resolve_eq_unitsFor h]
    show directorySources w c (Path.ofString target) = .ok units ↔ _
    rw [directorySources_eq_map_kept hw h hdir, map_eq_ok_iff]
    simp only [ha.kept_eq_ok_iff hw hp h]
    constructor
    · rintro ⟨found, ⟨hfits, rfl⟩, rfl⟩
      exact ⟨hfits, rfl⟩
    · rintro ⟨hfits, rfl⟩
      exact ⟨_, ⟨hfits, rfl⟩, rfl⟩

theorem mem_keptBelow (hw : w.Sound) (hp : ∀ n ∈ p.names, Path.IsName n)
    (h : w.LeadsTo p place t) (hdir : t.isDir = true) :
    names ∈ keptBelow w c p ignored t ↔
      HoldsFile w p names ∧ passesFilters w c p ignored names = true := by
  rw [keptBelow, sortNames, List.mem_mergeSort, List.mem_filter, Bool.and_eq_true,
    ← holdsFile_iff hw hp h]
  exact ⟨fun hkept => hkept.2, fun hkept =>
    ⟨mem_contents_of_holdsFile hw hp h hdir hkept.1, hkept⟩⟩

/-- What lies below a directory is spelled with names of files behind the directory. -/
theorem normalize_behind_of_holdsFile (hw : w.Sound) (h : HoldsFile w p names) :
    w.normalize (p.behind names) = (w.normalize p).behind names ∧
      ∀ n ∈ names, FileName n := by
  obtain ⟨f, hf⟩ := h
  have hn : ∀ n ∈ names, FileName n :=
    fun n hmem => hw.proper.of_find? hf n (List.mem_append_right _ hmem)
  exact ⟨Path.normalize_behind _ _ fun hup => (hn _ hup).notUp rfl, hn⟩

theorem ne_nil_of_mem_keptBelow (h : names ∈ keptBelow w c p ignored t) : names ≠ [] :=
  FileTree.ne_nil_of_mem_contents (List.mem_filter.mp (List.mem_mergeSort.mp h)).1

/-- **What the units of a directory are.** -/
theorem mem_unitsBelow (hw : w.Sound) (hp : ∀ n ∈ p.names, Path.IsName n)
    (h : w.LeadsTo p place t) (hdir : t.isDir = true) :
    u ∈ unitsBelow w c p ignored t ↔
      ∃ names, HoldsFile w p names ∧ u = w.normalize (p.behind names) ∧ isSource c u = true ∧
        passesFilters w c p ignored names = true := by
  rw [unitsBelow, mem_dedupe, List.mem_map]
  have hsource : ∀ names ∈ keptBelow w c p ignored t,
      isSource c (Path.here.behind names) = isSource c ((w.normalize p).behind names) := by
    intro names hmem
    have hne := ne_nil_of_mem_keptBelow hmem
    exact hasSuffix_congr (by rw [Path.name_behind _ hne, Path.name_behind _ hne]) _
  constructor
  · rintro ⟨names, hmem, rfl⟩
    obtain ⟨hkept, hname⟩ := List.mem_filter.mp hmem
    obtain ⟨hfile, hpasses⟩ := (mem_keptBelow hw hp h hdir).mp hkept
    rw [hsource names hkept] at hname
    exact ⟨names, hfile, (normalize_behind_of_holdsFile hw hfile).1.symm, hname, hpasses⟩
  · rintro ⟨names, hfile, rfl, hname, hpasses⟩
    have hkept := (mem_keptBelow hw hp h hdir).mpr ⟨hfile, hpasses⟩
    rw [(normalize_behind_of_holdsFile hw hfile).1] at hname ⊢
    exact ⟨names, List.mem_filter.mpr ⟨hkept, (hsource names hkept).trans hname⟩, rfl⟩

theorem normal_of_mem_unitsBelow (hw : w.Sound) (hp : ∀ n ∈ p.names, Path.IsName n)
    (h : w.LeadsTo p place t) (hdir : t.isDir = true) (hu : u ∈ unitsBelow w c p ignored t) :
    u.Normal := by
  obtain ⟨names, hfile, rfl, -⟩ := (mem_unitsBelow hw hp h hdir).mp hu
  refine hw.normal fun n hn => ?_
  rcases List.mem_append.mp hn with hn | hn
  · exact hp n hn
  · exact ((normalize_behind_of_holdsFile hw hfile).2 n hn).isName

/-- **The units of a directory stand in the order of their spellings, each once.** -/
theorem precedes_unitsBelow (hw : w.Sound) (hp : ∀ n ∈ p.names, Path.IsName n)
    (h : w.LeadsTo p place t) (hdir : t.isDir = true) :
    (unitsBelow w c p ignored t).Pairwise Path.Precedes := by
  have hbehind : (((keptBelow w c p ignored t).filter fun names =>
      isSource c (Path.here.behind names)).map (w.normalize p).behind).Pairwise
        fun u v => u.toString ≤ v.toString := by
    rw [List.pairwise_map]
    refine ((sortNames_pairwise _).sublist List.filter_sublist).imp_of_mem ?_
    intro a b ha hb hle
    rw [Path.toString_behind_le_iff]
    · exact hle
    · exact ne_nil_of_mem_keptBelow (List.mem_filter.mp ha).1
    · exact ne_nil_of_mem_keptBelow (List.mem_filter.mp hb).1
  have hsorted : (unitsBelow w c p ignored t).Pairwise fun u v => u.toString ≤ v.toString :=
    hbehind.sublist (dedupeAfter_sublist [] _)
  have hnodup : (unitsBelow w c p ignored t).Nodup := nodup_dedupe _
  refine (hsorted.and hnodup).imp_of_mem fun {u v} hu hv hboth => ?_
  refine lt_of_le_of_ne hboth.1 fun hsame => hboth.2 ?_
  exact Path.Normal.eq_of_toString (normal_of_mem_unitsBelow hw hp h hdir hu)
    (normal_of_mem_unitsBelow hw hp h hdir hv) hsame

/-! ### Filters -/

theorem passesFilters_iff :
    passesFilters w c p ignored names = true ↔
      (∀ pattern ∈ c.excludePatterns, Glob.matchesPath pattern (p.behind names) = false) ∧
      (c.respectGitignore = true → w.isFile (p.child ignoreFileName) = .ok true →
        ignored names = false) := by
  rw [passesFilters, goesByRules, Bool.and_eq_true, Bool.not_eq_true', Bool.not_eq_true',
    List.any_eq_false, and_comm, isThere]
  simp only [Bool.not_eq_true, Bool.and_eq_false_imp, Bool.and_eq_true, isTrue_iff, and_imp]

/-- Filters no more files than another configuration does. -/
structure Looser (c' c : TargetsConfig) : Prop where
  patterns : c'.excludePatterns ⊆ c.excludePatterns
  respect : c'.respectGitignore = true → c.respectGitignore = true
  sources : c.sourceExtensions ⊆ c'.sourceExtensions

namespace Looser

variable {c' : TargetsConfig}

theorem answers (hl : Looser c' c) (ha : Answers w c p ignored) : Answers w c' p ignored := by
  refine ⟨fun pattern hmem => ha.patterns pattern (hl.patterns hmem), fun hgoes => ha.rules ?_⟩
  obtain ⟨hrespect, hthere⟩ := (Bool.and_eq_true _ _).mp hgoes
  exact (Bool.and_eq_true _ _).mpr ⟨hl.respect hrespect, hthere⟩

theorem walkFits (hl : Looser c' c) (h : WalkFits w c p) : WalkFits w c' p :=
  ⟨h.room, h.below, fun hrespect => h.rules (hl.respect hrespect)⟩

theorem passesFilters (hl : Looser c' c) (h : passesFilters w c p ignored names = true) :
    Target.passesFilters w c' p ignored names = true := by
  rw [passesFilters_iff] at h ⊢
  exact ⟨fun pattern hmem => h.1 pattern (hl.patterns hmem),
    fun hrespect hthere => h.2 (hl.respect hrespect) hthere⟩

theorem isSource (hl : Looser c' c) (h : isSource c u = true) : Target.isSource c' u = true := by
  obtain ⟨s, hs, hends⟩ := hasSuffix_iff.mp h
  exact hasSuffix_iff.mpr ⟨s, hl.sources hs, hends⟩

end Looser

/-- **Filters take units away and leave the others in their places.** -/
theorem unitsBelow_sublist {c' : TargetsConfig} (hw : w.Sound)
    (hp : ∀ n ∈ p.names, Path.IsName n) (h : w.LeadsTo p place t) (hdir : t.isDir = true)
    (hl : Looser c' c) :
    (unitsBelow w c p ignored t).Sublist (unitsBelow w c' p ignored t) := by
  refine Path.sublist_of_precedes (precedes_unitsBelow hw hp h hdir)
    (precedes_unitsBelow hw hp h hdir) fun u hu => ?_
  rw [mem_unitsBelow hw hp h hdir] at hu ⊢
  obtain ⟨names, hfile, hsame, hname, hpasses⟩ := hu
  exact ⟨names, hfile, hsame, hl.isSource hname, hl.passesFilters hpasses⟩

/-- **Two lots of patterns leave what each of them leaves.** -/
theorem unitsBelow_append {first second : List String} (hw : w.Sound)
    (hp : ∀ n ∈ p.names, Path.IsName n) (h : w.LeadsTo p place t) (hdir : t.isDir = true)
    (hpatterns : c.excludePatterns = first ++ second) :
    unitsBelow w c p ignored t =
      (unitsBelow w { c with excludePatterns := first } p ignored t).filter
        (· ∈ unitsBelow w { c with excludePatterns := second } p ignored t) := by
  have hordered : ∀ c' : TargetsConfig, (unitsBelow w c' p ignored t).Pairwise Path.Precedes :=
    fun _ => precedes_unitsBelow hw hp h hdir
  refine (hordered c).eq_of_mem_iff ((hordered _).sublist List.filter_sublist) fun u => ?_
  rw [List.mem_filter, decide_eq_true_eq, mem_unitsBelow hw hp h hdir, mem_unitsBelow hw hp h hdir,
    mem_unitsBelow hw hp h hdir]
  simp only [passesFilters_iff, hpatterns, List.forall_mem_append]
  constructor
  · rintro ⟨names, hfile, hsame, hname, ⟨hfirst, hsecond⟩, hrules⟩
    exact ⟨⟨names, hfile, hsame, hname, hfirst, hrules⟩,
      names, hfile, hsame, hname, hsecond, hrules⟩
  · rintro ⟨⟨names, hfile, rfl, hname, hfirst, hrules⟩, names', hfile', hsame, -, hsecond, -⟩
    -- The same unit is at the same names below the directory.
    have hnames : names = names' := by
      rw [(normalize_behind_of_holdsFile hw hfile).1,
        (normalize_behind_of_holdsFile hw hfile').1] at hsame
      exact List.append_cancel_left (congrArg Path.names hsame)
    subst hnames
    exact ⟨names, hfile, rfl, hname, ⟨hfirst, hsecond⟩, hrules⟩

/-- **A directory is resolved exactly.**  Where there is room for a walk and all that it meets is
short enough, and only there, it gives units: in the order of their spellings, each once, and a path
is one of them where it is the normal form of a source file at some depth below the directory that
no pattern matches and the rules do not ignore.  With two lots of patterns it gives what it gives
with both of them, and with looser filters it gives more and the same in the same order. -/
theorem directory_exact (hw : w.Sound) (hdir : w.isDir (Path.ofString target) = .ok true)
    (ha : Answers w c (Path.ofString target) ignored) :
    ((∃ units, (resolve w c target).outcome = .ok units) ↔
      WalkFits w c (Path.ofString target)) ∧
    ∀ units, (resolve w c target).outcome = .ok units →
      units.Pairwise Path.Precedes ∧
      (∀ u, u ∈ units ↔ ∃ names, HoldsFile w (Path.ofString target) names ∧
        u = w.normalize ((Path.ofString target).behind names) ∧ isSource c u = true ∧
        (∀ pattern ∈ c.excludePatterns,
          Glob.matchesPath pattern ((Path.ofString target).behind names) = false) ∧
        (c.respectGitignore = true →
          w.isFile ((Path.ofString target).child ignoreFileName) = .ok true →
          ignored names = false)) ∧
      (∀ first second, c.excludePatterns = first ++ second → ∃ us vs,
        (resolve w { c with excludePatterns := first } target).outcome = .ok us ∧
        (resolve w { c with excludePatterns := second } target).outcome = .ok vs ∧
        units = us.filter (· ∈ vs)) ∧
      ∀ c', Looser c' c → ∃ more, (resolve w c' target).outcome = .ok more ∧
        units.Sublist more := by
  have hp : ∀ n ∈ (Path.ofString target).names, Path.IsName n :=
    fun n hn => Path.isName_of_mem_ofString hn
  obtain ⟨place, t, hleads, ht⟩ := leadsTo_of_test hdir
  have hresolves : ∀ c', Looser c' c → WalkFits w c (Path.ofString target) →
      (resolve w c' target).outcome = .ok (unitsBelow w c' (Path.ofString target) ignored t) :=
    fun c' hl hfits => ((hl.answers ha).resolve_eq_ok_iff hw hleads ht).mpr
      ⟨hl.walkFits hfits, rfl⟩
  have hself : Looser c c := ⟨List.Subset.refl _, id, List.Subset.refl _⟩
  refine ⟨⟨fun ⟨units, hunits⟩ => ?_, fun hfits => ⟨_, hresolves c hself hfits⟩⟩,
    fun units hunits => ?_⟩
  · exact ((ha.resolve_eq_ok_iff hw hleads ht).mp hunits).1
  · obtain ⟨hfits, rfl⟩ := (ha.resolve_eq_ok_iff hw hleads ht).mp hunits
    refine ⟨precedes_unitsBelow hw hp hleads ht, fun u => ?_, ?_, fun c' hl => ?_⟩
    · rw [mem_unitsBelow hw hp hleads ht]
      simp only [passesFilters_iff]
    · intro first second hpatterns
      have hfirst : Looser { c with excludePatterns := first } c :=
        ⟨hpatterns ▸ List.subset_append_left first second, id, List.Subset.refl _⟩
      have hsecond : Looser { c with excludePatterns := second } c :=
        ⟨hpatterns ▸ List.subset_append_right first second, id, List.Subset.refl _⟩
      exact ⟨_, _, hresolves _ hfirst hfits, hresolves _ hsecond hfits,
        unitsBelow_append hw hp hleads ht hpatterns⟩
    · exact ⟨_, hresolves c' hl hfits, unitsBelow_sublist hw hp hleads ht hl⟩

/-- A directory with a rule, asked for in a roundabout way, and two patterns. -/
theorem directory_exact_of_rules :
    let d : FileTree := .dir [(".gitignore", .file ⟨"/g.py".toUTF8.toList⟩),
      ("m.py", .file ⟨[]⟩), ("g.py", .file ⟨[]⟩),
      ("sub", .dir [("o.PY", .file ⟨[]⟩), ("n.py", .file ⟨[]⟩),
        ("k.py", .file ⟨[]⟩)])]
    let w : Workspace := ⟨.dir [("work", .dir [("d", d)])], ["work"], [], .bare⟩
    let c : TargetsConfig := { excludePatterns := ["n.*", "sub/k.py"], respectGitignore := true }
    let units : List Path :=
      [⟨.slash, ["work", "d", "m.py"]⟩, ⟨.slash, ["work", "d", "sub", "o.PY"]⟩]
    (resolve w c "d/sub/..").outcome = .ok units ∧
      ∃ us vs, (resolve w { c with excludePatterns := ["n.*"] } "d/sub/..").outcome = .ok us ∧
        (resolve w { c with excludePatterns := ["sub/k.py"] } "d/sub/..").outcome = .ok vs ∧
        units = us.filter (· ∈ vs) := by
  intro d w c units
  have hnames : FileName "work" ∧ FileName "d" ∧ FileName ".gitignore" ∧ FileName "m.py" ∧
      FileName "g.py" ∧ FileName "sub" ∧ FileName "o.PY" ∧ FileName "n.py" ∧ FileName "k.py" := by
    decide +kernel
  obtain ⟨hwork, hd, hrules, hm, hg, hsub, ho, hn, hk⟩ := hnames
  have hsound : w.Sound :=
    ⟨⟨hwork, ⟨hd, ⟨hrules, trivial, hm, trivial, hg, trivial, hsub,
      ⟨ho, trivial, hn, trivial, hk, trivial, trivial⟩, trivial⟩, trivial⟩, trivial⟩, _, rfl⟩
  have hdir : w.isDir (Path.ofString "d/sub/..") = .ok true := by decide +kernel
  have hplace : (w.normalize (Path.ofString "d/sub/..")).names = ["work", "d"] := by
    decide +kernel
  have hread : w.ignoreRules (Path.ofString "d/sub/..") =
      .ok [⟨false, "^g\\.py$".toList⟩] := by decide +kernel
  let ignored : List String → Bool := fun names => names = ["g.py"]
  have hasked : ∀ names ∈ d.contents, Ignore.ignores [⟨false, "^g\\.py$".toList⟩]
      (Path.joinNames names) = .ok (ignored names) := by decide +kernel
  have hp : ∀ n ∈ (Path.ofString "d/sub/..").names, Path.IsName n :=
    fun n hn => Path.isName_of_mem_ofString hn
  obtain ⟨place, t, hleads, ht⟩ := leadsTo_of_test hdir
  have htree : w.root.find? ["work", "d"] = some t := by
    rw [← hplace]
    exact hsound.locate hp hleads.located
  obtain rfl : d = t := Option.some.inj htree
  have ha : Answers w c (Path.ofString "d/sub/..") ignored :=
    ⟨by decide +kernel, fun _ => ⟨_, hread, fun names hfile =>
      hasked names (mem_contents_of_holdsFile hsound hp hleads ht hfile)⟩⟩
  have hkept : keptBelow w c (Path.ofString "d/sub/..") ignored d =
      [[".gitignore"], ["m.py"], ["sub", "o.PY"]] := by
    have hfiltered : d.contents.filter (fun names => (d.find? names).any FileTree.isFile &&
        passesFilters w c (Path.ofString "d/sub/..") ignored names) =
          [[".gitignore"], ["m.py"], ["sub", "o.PY"]] := by decide +kernel
    rw [keptBelow, hfiltered]
    exact List.mergeSort_of_pairwise (by decide)
  have hunits : (resolve w c "d/sub/..").outcome = .ok units := by
    rw [ha.resolve_eq_ok_iff hsound hleads ht, unitsBelow, hkept]
    exact ⟨⟨by decide +kernel, by decide +kernel, by decide +kernel⟩, by decide +kernel⟩
  obtain ⟨-, hexact⟩ := directory_exact hsound hdir ha
  obtain ⟨-, -, hcommon, -⟩ := hexact _ hunits
  exact ⟨hunits, hcommon ["n.*"] ["sub/k.py"] rfl⟩

/-- A directory with a file so deep below it that it cannot be followed from there. -/
theorem unresolved_root_of_buried :
    buried.Sound ∧ buried.isDir (Path.ofString "/") = .ok true ∧
      (∀ ignored, Answers buried {} (Path.ofString "/") ignored) ∧
      HoldsFile buried (Path.ofString "/") buriedUnit.names ∧
      ∀ units, (resolve buried {} "/").outcome ≠ .ok units := by
  have hdir : buried.isDir (Path.ofString "/") = .ok true := by decide +kernel
  have hroot : Path.ofString "/" = ⟨.slash, []⟩ := by decide +kernel
  have hanswers : ∀ ignored, Answers buried {} (Path.ofString "/") ignored := by
    refine fun ignored => ⟨fun pattern hmem => absurd hmem List.not_mem_nil, fun hgoes => ?_⟩
    cases hgoes
  have hholds : HoldsFile buried (Path.ofString "/") buriedUnit.names := by
    rw [hroot]
    exact isUnit_buriedUnit.file
  refine ⟨sound_buried, hdir, hanswers, hholds, fun units hunits => ?_⟩
  obtain ⟨place, t, hleads, ht⟩ := leadsTo_of_test hdir
  have hp : ∀ n ∈ (Path.ofString "/").names, Path.IsName n :=
    fun n hn => Path.isName_of_mem_ofString hn
  have hfits := (((hanswers fun _ => false).resolve_eq_ok_iff sound_buried hleads ht).mp hunits).1
  have hmem := mem_contents_of_holdsFile sound_buried hp hleads ht hholds
  have hshort := hfits.below _ (hleads.below_eq ▸ List.mem_map_of_mem hmem)
  rw [hroot] at hshort
  exact absurd long_buriedUnit (Nat.not_lt.mpr hshort)

end Target

end LintHost
