/-
A resolution gives the same units under every spelling of its target.

What a target is told by its own name and by what it leads to, and both are the same under two
spellings with one normal form.  A descriptor that is read under two spellings holds values that
are alike, and lists the same paths, `listedPaths_congr`; and a walk meets the same names.

There are two things that a spelling can change.  Patterns that exclude files are matched against
the files as the walk spells them, so that a pattern can exclude a file under one spelling of the
directory and leave it under another; and a path can be too long under one spelling only.
`resolve_of_spellings` shows both.  A target is `Neutral` if neither comes to pass, and then
`resolve_normal` says that it is resolved as its normal form is.  Relative patterns with no more
parts than a file has names below the directory exclude it under every spelling or under none,
`excluded_behind`; a pattern of a single part always is one of these.
-/
import LintHost.Proofs.Spelling
import LintHost.Proofs.Target.Units
import LintHost.Proofs.Yaml.Origin

namespace LintHost

open Outcome

/-! ### Patterns -/

namespace Glob

/-- A pattern sees no more of a path than the names that it has parts for. -/
theorem matchesFromRight_append {ps ns ms : List String} (h : ps.length ≤ ns.length) :
    matchesFromRight ps (ns ++ ms) = matchesFromRight ps ns := by
  induction ps generalizing ns with
  | nil => rw [matchesFromRight, matchesFromRight]
  | cons p ps ih =>
    cases ns with
    | nil => cases h
    | cons n ns =>
      rw [List.cons_append, matchesFromRight, matchesFromRight, ih (Nat.le_of_succ_le_succ h)]

theorem parts_behind (p : Path) (names : List String) :
    (p.behind names).parts = p.parts ++ names := by
  unfold Path.behind Path.parts
  cases p.root <;> rfl

/-- A relative pattern with no more parts than there are names behind a path matches those alone. -/
theorem matchesPath_behind {pattern : String} {names : List String} (p : Path)
    (hrelative : (Path.ofString pattern).root = .relative)
    (hshort : (Path.ofString pattern).names.length ≤ names.length) :
    matchesPath pattern (p.behind names) =
      matchesFromRight (Path.ofString pattern).names.reverse names.reverse := by
  have hfits : (Path.ofString pattern).names.length ≤ (p.behind names).parts.length := by
    rw [parts_behind, List.length_append]
    omega
  rw [matchesPath]
  simp only [if_pos hrelative]
  rw [decide_eq_true hfits, Bool.true_and, parts_behind, List.reverse_append]
  exact matchesFromRight_append (by simpa using hshort)

end Glob

/-- **Short relative patterns exclude the same files behind all spellings.** -/
theorem Workspace.excluded_behind {patterns : List String} {names : List String} (p q : Path)
    (h : ∀ pattern ∈ patterns, (Path.ofString pattern).root = .relative ∧
      (Path.ofString pattern).names.length ≤ names.length) :
    excluded (p.behind names) patterns = excluded (q.behind names) patterns := by
  induction patterns with
  | nil => rfl
  | cons pattern rest ih =>
    obtain ⟨hrelative, hshort⟩ := h pattern (by simp)
    rw [excluded, excluded, Glob.matchesPath_behind p hrelative hshort,
      Glob.matchesPath_behind q hrelative hshort, ih fun r hr => h r (by simp [hr])]

namespace Target

open Workspace

variable {w : Workspace} {c : TargetsConfig} {p q : Path} {place : List String} {t : FileTree}
  {f : File} {g g' : String}

/-! ### Descriptors -/

/-- The text that a value is, if it is one. -/
def text? : Value → Option String
  | .str s => some s
  | _ => none

theorem filterMap_text_congr {xs ys : List Value} (h : List.Forall₂ (Yaml.Alike g g') xs ys) :
    xs.filterMap text? = ys.filterMap text? := by
  induction h with
  | nil => rfl
  | cons hhead _ ih =>
    have htext : ∀ {v v'}, Yaml.Alike g g' v v' → text? v = text? v' := fun h => by cases h <;> rfl
    rw [List.filterMap_cons, List.filterMap_cons, ih, htext hhead]

/-- Alike values list the same texts. -/
theorem listedTexts_congr {v v' : Value} (h : Yaml.Alike g g' v v') (key : String) :
    listedTexts key v = listedTexts key v' := by
  have hview := h.view
  rw [listedTexts, listedTexts]
  generalize v.view = x at hview
  generalize v'.view = x' at hview
  cases hview with
  | map hkeys hvalues =>
    have hentries := Yaml.alike_map_iff.mp (.map hkeys hvalues)
    have hkey : Yaml.Alike g g' (.str key) (.str key) := .fixed ⟨rfl, by simp⟩
    have hfound := hentries.lookup hkey
    dsimp only [Value.lookupName]
    generalize Value.lookup (.str key) _ = o at hfound
    generalize Value.lookup (.str key) _ = o' at hfound
    cases hfound with
    | none => rfl
    | some hitem =>
      have hitems := hitem.view
      dsimp only [Option.map_some]
      generalize Value.view _ = y at hitems
      generalize Value.view _ = y' at hitems
      cases hitems with
      | list hlist => exact congrArg some (filterMap_text_congr hlist)
      | _ => rfl
  | _ => rfl

theorem normalize_parent (hw : w.Sound) (hp : ∀ n ∈ p.names, Path.IsName n)
    (h : w.LeadsTo p place (.file f)) : w.normalize p.parent = (w.normalize p).parent := by
  obtain ⟨-, hwalk, hfind⟩ := locate_eq_ok_iff.mp h.located
  obtain ⟨es, hstart⟩ := hw.start p
  obtain ⟨front, n, hnames, hup⟩ := FileTree.exists_snoc_of_walk hp hstart hwalk hfind
  have hbehind : p = p.parent.behind [n] := by
    rw [Path.parent, Path.behind, hnames, List.dropLast_concat, ← hnames]
  have hclean : Path.up ∉ [n] := by simp [Ne.symm hup]
  have hnormal : w.normalize p = (w.normalize p.parent).behind [n] := by
    conv_lhs => rw [hbehind]
    exact Path.normalize_behind _ _ hclean
  rw [hnormal, Path.behind]
  generalize w.normalize p.parent = d
  rw [Path.parent, List.dropLast_concat]

/-- What is listed in a directory does not depend on how the directory is spelled. -/
theorem normalize_join_congr (h : w.normalize p = w.normalize q) (r : Path) :
    w.normalize (p.join r) = w.normalize (q.join r) := by
  rw [Path.join, Path.join]
  split_ifs
  · have hp := Path.normalize_names_behind w.cwdPath p r.names
    have hq := Path.normalize_names_behind w.cwdPath q r.names
    rw [Workspace.normalize, Workspace.normalize] at h
    rw [← h] at hq
    exact hp.trans hq.symm
  · rfl

/-- Two spellings of a file, each made of names, that have one normal form. -/
structure SameFile (w : Workspace) (p q : Path) (place : List String) (f : File) : Prop where
  names : ∀ n ∈ p.names, Path.IsName n
  names' : ∀ n ∈ q.names, Path.IsName n
  leads : w.LeadsTo p place (.file f)
  leads' : w.LeadsTo q place (.file f)
  normal : w.normalize p = w.normalize q

/-- **A descriptor lists the same paths under two spellings.** -/
theorem listedPaths_congr (hw : w.Sound) (h : SameFile w p q place f) (key : String) :
    (listedPaths w p key).outcome = (listedPaths w q key).outcome := by
  have hparent : w.normalize p.parent = w.normalize q.parent := by
    rw [normalize_parent hw h.names h.leads, normalize_parent hw h.names' h.leads', h.normal]
  have hvalue := Yaml.both_valueOf w.interpreter.nestingRoom p.toString q.toString
    (Text.Portion.read f.bytes)
  rw [listedPaths_outcome, listedPaths_outcome, readYaml_of_openFile h.leads.openFile,
    readYaml_of_openFile h.leads'.openFile]
  generalize Yaml.valueOf w.interpreter.nestingRoom p.toString (Text.Portion.read f.bytes) = x
    at hvalue ⊢
  generalize Yaml.valueOf w.interpreter.nestingRoom q.toString (Text.Portion.read f.bytes) = y
    at hvalue ⊢
  cases hvalue with
  | error e => rfl
  | ok h =>
    dsimp only [Except.mapError]
    rw [← listedTexts_congr h key]
    refine congrArg Except.ok (List.map_congr_left fun s _ => ?_)
    exact normalize_join_congr hparent (Path.ofString s)

theorem projectSources_congr (hw : w.Sound) (h : SameFile w p q place f) :
    (projectSources w c p).outcome = (projectSources w c q).outcome := by
  rw [projectSources_outcome, projectSources_outcome, listedPaths_congr hw h]

theorem solutionSources_congr (hw : w.Sound) (h : SameFile w p q place f) :
    (solutionSources w c p).outcome = (solutionSources w c q).outcome := by
  rw [solutionSources_outcome, solutionSources_outcome, solutionProjects_outcome,
    solutionProjects_outcome, listedPaths_congr hw h]

/-- Two spellings of a file give the same units, whatever the file is by its name. -/
theorem unitsFor_file_congr {target target' : String} (hw : w.Sound)
    (h : SameFile w (Path.ofString target) (Path.ofString target') place f) :
    (unitsFor w c target (fileKind c (Path.ofString target))).outcome =
      (unitsFor w c target' (fileKind c (Path.ofString target'))).outcome := by
  have hname : (Path.ofString target).name = (Path.ofString target').name := by
    rw [← hw.normalize_name h.names h.leads.located, ← hw.normalize_name h.names' h.leads'.located,
      h.normal]
  have hsuffix := hasSuffix_congr hname
  rw [unitsFor_fileKind, unitsFor_fileKind, isSolution, isSolution, isProject, isProject, isSource,
    isSource, hsuffix, hsuffix, hsuffix]
  split_ifs
  · exact solutionSources_congr hw h
  · exact projectSources_congr hw h
  · rw [h.normal]
  · rfl

/-! ### Directories -/

/-- **A directory gives the names that a walk keeps and that are names of sources, behind the normal
form of its spelling.** -/
theorem directorySources_eq_map_kept (hw : w.Sound) (h : w.LeadsTo p place t)
    (hdir : t.isDir = true) :
    directorySources w c p =
      (fun found => dedupe ((found.filter fun names => isSource c (Path.here.behind names)).map
        (w.normalize p).behind)) <$> w.kept p t c.excludePatterns c.respectGitignore := by
  rw [directorySources, scan_eq_map_kept h hdir]
  cases hfound : w.kept p t c.excludePatterns c.respectGitignore with
  | error e => rfl
  | ok found =>
    have hmem := mem_contents_of_mem_kept hfound
    have hsource : found.filter (isSource c ∘ p.behind) =
        found.filter fun names => isSource c (Path.here.behind names) := by
      refine List.filter_congr fun names hnames => hasSuffix_congr ?_ c.sourceExtensions
      have hne := FileTree.ne_nil_of_mem_contents (hmem names hnames)
      rw [Path.name_behind p hne, Path.name_behind Path.here hne]
    have hunits : ((found.map p.behind).filter (isSource c)).map w.normalize =
        (found.filter fun names => isSource c (Path.here.behind names)).map
          (w.normalize p).behind := by
      rw [List.filter_map, List.map_map, hsource]
      refine List.map_congr_left fun names hnames => ?_
      have hnames := hmem names (List.mem_filter.mp hnames).1
      exact Path.normalize_behind _ _ fun hup =>
        ((h.proper hw).of_mem_contents hnames _ hup).notUp rfl
    exact congrArg (fun units => Except.ok (dedupe units)) hunits

theorem directorySources_congr (hw : w.Sound) (hp : w.LeadsTo p place t)
    (hq : w.LeadsTo q place t) (hdir : t.isDir = true) (hnormal : w.normalize p = w.normalize q)
    (hkept : w.kept p t c.excludePatterns c.respectGitignore =
      w.kept q t c.excludePatterns c.respectGitignore) :
    directorySources w c p = directorySources w c q := by
  rw [directorySources_eq_map_kept hw hp hdir, directorySources_eq_map_kept hw hq hdir, hkept,
    hnormal]

/-! ### All spellings -/

/-- The paths that a resolution of a target looks at, as far as the target tells. -/
def looksAt (w : Workspace) (c : TargetsConfig) (p : Path) : List Path :=
  p :: (w.below p ++
    if c.respectGitignore && isTrue (w.isDir p) then [p.child ignoreFileName] else [])

/-- A target that is there, whose spelling makes no difference: what a resolution looks at can be
followed as it is spelled and in its normal form, and the patterns exclude the same files under
both. -/
structure Neutral (w : Workspace) (c : TargetsConfig) (p : Path) : Prop where
  there : w.isFile p = .ok true ∨ w.isDir p = .ok true
  fits : ∀ q ∈ looksAt w c p, Fits q ∧ Fits (w.normalize q)
  excluded : ∀ q ∈ w.below p, w.isFile q = .ok true →
    excluded q c.excludePatterns = excluded (w.normalize q) c.excludePatterns

theorem resolve_eq_unitsFor {target : String} (h : w.LeadsTo (Path.ofString target) place t) :
    resolve w c target = unitsFor w c target
      (match t with
        | .dir _ => .directory
        | .file _ => fileKind c (Path.ofString target)) := by
  have hfile : w.isFile (Path.ofString target) = .ok t.isFile := h.test FileTree.isFile
  have hdir : w.isDir (Path.ofString target) = .ok t.isDir := h.test FileTree.isDir
  rw [resolve_of_lookable ⟨_, hfile⟩, kindAt, isThere_of_isFile hfile, hdir]
  cases t <;> rfl

/-- **Relative patterns with no more parts than a file has names below the directory exclude it
under every spelling, or under none.** -/
theorem excluded_normalize (hw : w.Sound) (hq : q ∈ w.below p) {patterns : List String}
    (h : ∀ pattern ∈ patterns, (Path.ofString pattern).root = .relative ∧
      p.names.length + (Path.ofString pattern).names.length ≤ q.names.length) :
    excluded q patterns = excluded (w.normalize q) patterns := by
  unfold below at hq
  cases hloc : w.locate p with
  | error e =>
    rw [hloc] at hq
    cases hq
  | ok there =>
    obtain ⟨place, t⟩ := there
    rw [hloc] at hq
    obtain ⟨names, hnames, rfl⟩ := List.mem_map.mp hq
    obtain ⟨-, -, hfind⟩ := locate_eq_ok_iff.mp hloc
    have hclean : Path.up ∉ names :=
      fun hup => ((hw.proper.find? hfind).of_mem_contents hnames _ hup).notUp rfl
    have hnormal : w.normalize (p.behind names) = (w.normalize p).behind names :=
      Path.normalize_behind _ _ hclean
    show excluded (p.behind names) patterns = excluded (w.normalize (p.behind names)) patterns
    rw [hnormal]
    refine excluded_behind p (w.normalize p) fun pattern hpattern => ?_
    obtain ⟨hrelative, hshort⟩ := h pattern hpattern
    rw [List.length_append] at hshort
    exact ⟨hrelative, Nat.le_of_add_le_add_left hshort⟩

/-- A walk below a neutral directory keeps the same names below its normal form. -/
theorem Neutral.kept_eq (hw : w.Sound) (hp : ∀ n ∈ p.names, Path.IsName n) (h : Neutral w c p)
    (hleads : w.LeadsTo p place t) (hdir : t.isDir = true) :
    w.kept p t c.excludePatterns c.respectGitignore =
      w.kept (w.normalize p) t c.excludePatterns c.respectGitignore := by
  have hleads' := hleads.normalize hw hp (h.fits _ List.mem_cons_self).2
  have hbehind : ∀ names, (∀ n ∈ names, FileName n) →
      w.normalize (p.behind names) = (w.normalize p).behind names :=
    fun names hnames => Path.normalize_behind _ _ fun hup => (hnames _ hup).notUp rfl
  have hbelow : ∀ names ∈ t.contents, p.behind names ∈ w.below p := by
    intro names hmem
    rw [below, hleads.located]
    exact List.mem_map_of_mem hmem
  have hclean : ∀ names ∈ t.contents, ∀ n ∈ names, FileName n :=
    fun names hmem => (hleads.proper hw).of_mem_contents hmem
  refine kept_congr hw hleads hleads' (fun names hmem => ?_) (fun hrespect => ?_)
    fun names hmem hfile => ?_
  · rw [← hbehind names (hclean names hmem)]
    exact h.fits _ (List.mem_cons_of_mem _ (List.mem_append_left _ (hbelow names hmem)))
  · have hisDir : isTrue (w.isDir p) = true :=
      isTrue_iff.mpr ((hleads.test FileTree.isDir).trans (congrArg _ hdir))
    have hchild : w.normalize (p.child ignoreFileName) = (w.normalize p).child ignoreFileName :=
      hbehind [ignoreFileName] (by decide)
    rw [← hchild]
    refine h.fits _ (List.mem_cons_of_mem _ (List.mem_append_right _ ?_))
    rw [hrespect, hisDir]
    exact List.mem_singleton_self _
  · rw [← hbehind names (hclean names hmem)]
    exact h.excluded _ (hbelow names hmem) hfile

/-- **A target is resolved as its normal form is.** -/
theorem resolve_normal {target : String} (hw : w.Sound) (h : Neutral w c (Path.ofString target)) :
    (resolve w c target).outcome =
      (resolve w c (w.normalize (Path.ofString target)).toString).outcome := by
  have hnames : ∀ n ∈ (Path.ofString target).names, Path.IsName n :=
    fun n hn => Path.isName_of_mem_ofString hn
  have hnormal := hw.normal hnames
  have hspelled := hnormal.ofString_toString
  have hsame : w.normalize (Path.ofString target) =
      w.normalize (w.normalize (Path.ofString target)) := (hnormal.normalize_eq w.cwdPath).symm
  obtain ⟨place, t, hleads⟩ : ∃ place t, w.LeadsTo (Path.ofString target) place t := by
    rcases h.there with hfile | hdir
    · obtain ⟨place, t, hleads, -⟩ := leadsTo_of_test hfile
      exact ⟨place, t, hleads⟩
    · obtain ⟨place, t, hleads, -⟩ := leadsTo_of_test hdir
      exact ⟨place, t, hleads⟩
  have hleads' := hleads.normalize hw hnames (h.fits _ List.mem_cons_self).2
  have hagain : w.LeadsTo (Path.ofString (w.normalize (Path.ofString target)).toString) place t :=
    hspelled.symm ▸ hleads'
  rw [resolve_eq_unitsFor hleads, resolve_eq_unitsFor hagain]
  cases t with
  | dir es =>
    dsimp only [unitsFor]
    rw [hspelled, directorySources_congr hw hleads hleads' rfl hsame
      (h.kept_eq hw hnames hleads rfl)]
  | file f =>
    have hfile : SameFile w (Path.ofString target)
        (Path.ofString (w.normalize (Path.ofString target)).toString) place f :=
      ⟨hnames, fun n hn => Path.isName_of_mem_ofString hn, hleads, hagain,
        by rw [hspelled, ← hsame]⟩
    exact unitsFor_file_congr hw hfile

/-- **A target is resolved as its normal form is, and so are all of its spellings alike.** -/
theorem resolve_spellings {target : String} (hw : w.Sound)
    (h : Neutral w c (Path.ofString target)) :
    (resolve w c target).outcome =
        (resolve w c (w.normalize (Path.ofString target)).toString).outcome ∧
      ∀ target', w.normalize (Path.ofString target') = w.normalize (Path.ofString target) →
        Neutral w c (Path.ofString target') →
        (resolve w c target').outcome = (resolve w c target).outcome := by
  refine ⟨resolve_normal hw h, fun target' hnormal h' => ?_⟩
  rw [resolve_normal hw h', hnormal, ← resolve_normal hw h]

/-- A directory that is asked for in a roundabout way, with a pattern in force. -/
theorem resolve_spellings_of_directory :
    let w : Workspace := ⟨.dir [("work", .dir [("d", .dir [("m.py", .file ⟨[]⟩),
      ("sub", .dir [("n.py", .file ⟨[]⟩)])])])], ["work"], [], .bare⟩
    let c : TargetsConfig := { excludePatterns := ["n.*"], respectGitignore := true }
    (resolve w c "/work/d").outcome = .ok [⟨.slash, ["work", "d", "m.py"]⟩] ∧
      (resolve w c "../work/./d/sub/..").outcome = (resolve w c "/work/d").outcome ∧
      (resolve w c "d").outcome = (resolve w c "../work/./d/sub/..").outcome := by
  intro w c
  have hnames : FileName "work" ∧ FileName "d" ∧ FileName "m.py" ∧ FileName "sub" ∧
      FileName "n.py" := by decide +kernel
  obtain ⟨hwork, hd, hm, hsub, hn⟩ := hnames
  have hproper : w.root.Proper :=
    ⟨hwork, ⟨hd, ⟨hm, trivial, hsub, ⟨hn, trivial, trivial⟩, trivial⟩, trivial⟩, trivial⟩
  have hsound : w.Sound := ⟨hproper, _, rfl⟩
  have hneutral : ∀ p, w.isDir p = .ok true →
      (∀ q ∈ looksAt w c p, Fits q ∧ Fits (w.normalize q)) →
      (∀ q ∈ w.below p, ∀ pattern ∈ c.excludePatterns, (Path.ofString pattern).root = .relative ∧
        p.names.length + (Path.ofString pattern).names.length ≤ q.names.length) →
      Neutral w c p := fun p hdir hfits hpatterns =>
    ⟨.inr hdir, hfits, fun q hq _ => excluded_normalize hsound hq (hpatterns q hq)⟩
  have hround : Neutral w c (Path.ofString "../work/./d/sub/..") :=
    hneutral _ (by decide +kernel) (by decide +kernel) (by decide +kernel)
  have hplain : Neutral w c (Path.ofString "d") :=
    hneutral _ (by decide +kernel) (by decide +kernel) (by decide +kernel)
  have hnormal : (w.normalize (Path.ofString "../work/./d/sub/..")).toString = "/work/d" := by
    decide +kernel
  obtain ⟨hone, hall⟩ := resolve_spellings hsound hround
  rw [hnormal] at hone
  exact ⟨by decide +kernel, hone, hall "d" (by decide +kernel) hplain⟩

/-- A pattern that sees the spelling of a directory, and a file that cannot be followed from the
root. -/
theorem resolve_of_spellings :
    let w : Workspace := ⟨.dir [("work", .dir [("d", .dir [("m.py", .file ⟨[]⟩)])])],
      ["work"], [], .bare⟩
    let c : TargetsConfig := { excludePatterns := ["work/d/m.py"] }
    w.Sound ∧ (w.normalize (Path.ofString "d")).toString = "/work/d" ∧
      (resolve w c "d").outcome = .ok [⟨.slash, ["work", "d", "m.py"]⟩] ∧
      (resolve w c "/work/d").outcome = .ok [] ∧
      buried.Sound ∧ (resolve buried {} "m.py").outcome = .ok [buriedUnit] ∧
      (resolve buried {} (buried.normalize (Path.ofString "m.py")).toString).outcome =
        .error (.os ⟨.nameTooLong, buriedUnit.toString⟩) := by
  intro w c
  have hnames : FileName "work" ∧ FileName "d" ∧ FileName "m.py" := by decide +kernel
  obtain ⟨hwork, hd, hm⟩ := hnames
  have hsound : w.Sound :=
    ⟨⟨hwork, ⟨hd, ⟨hm, trivial, trivial⟩, trivial⟩, trivial⟩, _, rfl⟩
  have hburied : buried.normalize (Path.ofString "m.py") = buriedUnit := by decide +kernel
  refine ⟨hsound, by decide +kernel, by decide +kernel, by decide +kernel, sound_buried,
    units_of_buried, ?_⟩
  rw [hburied, resolve_of_long sound_buried.proper isUnit_buriedUnit long_buriedUnit]
  rfl

end Target

end LintHost
