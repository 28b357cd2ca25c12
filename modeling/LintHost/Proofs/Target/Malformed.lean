/-
Descriptors that are not what they should be.

Of the descriptors that a resolution opens, those that list nothing under their key leave a warning
each and give no units, and the other projects of a solution give what they give without them.  What
ends a resolution is told in full: a path that is too long to be looked at, a directory with more
directories inside each other than a walk has room for, and a descriptor whose reading fails with
something else than a breach of the notation, `Upsets`.  Bytes that are no text are of the last
sort, and so are a day, a number or a character that does not exist.
-/
import LintHost.Proofs.Target.Resolution

namespace LintHost.Target

open Outcome

/-! ### Lists without repetitions -/

section

variable {α β : Type} [DecidableEq α]

theorem dedupeAfter_congr {seen seen' xs : List α} (h : ∀ x ∈ xs, x ∈ seen ↔ x ∈ seen') :
    dedupeAfter seen xs = dedupeAfter seen' xs := by
  induction xs generalizing seen seen' with
  | nil => rfl
  | cons x rest ih =>
    have hrest : ∀ y ∈ rest, y ∈ seen ↔ y ∈ seen' := fun y hy => h y (by simp [hy])
    rw [dedupeAfter, dedupeAfter, if_congr (h x (by simp)) (ih hrest) (congrArg _ (ih ?_))]
    intro y hy
    rw [List.mem_cons, List.mem_cons, hrest y hy]

theorem filter_dedupeAfter (q : α → Bool) (seen xs : List α) :
    (dedupeAfter seen xs).filter q = dedupeAfter seen (xs.filter q) := by
  induction xs generalizing seen with
  | nil => rfl
  | cons x rest ih =>
    rw [dedupeAfter, List.filter_cons]
    by_cases hx : x ∈ seen
    · rw [if_pos hx, ih]
      by_cases hq : q x = true
      · rw [if_pos hq, dedupeAfter, if_pos hx]
      · rw [if_neg hq]
    · rw [if_neg hx, List.filter_cons, ih]
      by_cases hq : q x = true
      · rw [if_pos hq, if_pos hq, dedupeAfter, if_neg hx]
      · -- What is left out is not among the rest, so it does not matter that it was seen.
        rw [if_neg hq, if_neg hq]
        refine dedupeAfter_congr fun y hy => ?_
        have hne : y ≠ x := by
          rintro rfl
          exact hq (List.mem_filter.mp hy).2
        simp [hne]

/-- Leaving items out and leaving repetitions out come to the same in either order. -/
theorem filter_dedupe (q : α → Bool) (xs : List α) :
    (dedupe xs).filter q = dedupe (xs.filter q) :=
  filter_dedupeAfter q [] xs

end

theorem flatMap_filter_of_nil {α β : Type} {f : α → List β} {q : α → Bool} {xs : List α}
    (h : ∀ x ∈ xs, q x = false → f x = []) : (xs.filter q).flatMap f = xs.flatMap f := by
  induction xs with
  | nil => rfl
  | cons x rest ih =>
    have hrest := ih fun y hy => h y (by simp [hy])
    rw [List.filter_cons, List.flatMap_cons]
    cases hq : q x with
    | true => rw [if_pos rfl, List.flatMap_cons, hrest]
    | false => rw [if_neg (by simp), hrest, h x (by simp) hq, List.nil_append]

/-! ### What a resolution opens and looks at -/

/-- The descriptors that a resolution opens, with the keys of the lists that it looks for. -/
def opened (w : Workspace) (c : TargetsConfig) (p : Path) : List (Path × String) :=
  match kindAt w c p with
  | .solution => (p, "projects") :: (projectsIn w c p).map fun q => (q, "sources")
  | .project => [(p, "sources")]
  | .directory | .nothing | .source | .other => []

/-- The paths that a resolution looks at. -/
def lookedAt (w : Workspace) (c : TargetsConfig) (p : Path) : List Path :=
  p :: match kindAt w c p with
  | .directory => w.below p
  | .solution => lookedAtForProjects w c p ++ (projectsIn w c p).flatMap (lookedAtFor w)
  | .project => lookedAtFor w p
  | .nothing | .source | .other => []

/-- A walk has room for the directories that it goes into, if there is a walk. -/
def HasRoom (w : Workspace) (c : TargetsConfig) (p : Path) : Prop :=
  kindAt w c p = .directory → w.depthBelow p ≤ w.interpreter.walkRoom

/-- The units that a resolution gives if nothing ends it. -/
def given (w : Workspace) (c : TargetsConfig) (p : Path) : List Path :=
  match kindAt w c p with
  | .directory =>
    let files := Workspace.sortPaths ((w.below p).filter w.isThere)
    dedupe ((files.filter (isSource c)).map w.normalize)
  | .solution => dedupe ((projectsIn w c p).flatMap (sourcesIn w c))
  | .project => sourcesIn w c p
  | .source => [w.normalize p]
  | .nothing | .other => []

/-- Reading the bytes of a descriptor fails with something else than a breach of the notation. -/
def Upsets (w : Workspace) (p : Path) : Prop :=
  ∃ file e, w.openFile p = .ok file ∧
    Yaml.valueOf w.interpreter.nestingRoom p.toString (Text.Portion.read file.bytes) = .error e ∧
    e ≠ .malformed

/-- Is about a descriptor that lists nothing. -/
def isAboutDescriptor : Event → Bool
  | .descriptorUnreadable _ => true
  | .descriptorMissingList _ _ => true
  | _ => false

variable {w : Workspace} {c : TargetsConfig} {target : String} {p : Path} {units : List Path}

/-! ### Reading what is there -/

theorem isUnreadable_yaml {e : Yaml.Error} : isUnreadable (.yaml e) = false ↔ e ≠ .malformed := by
  cases e <;> simp [isUnreadable]

/-- A descriptor that is there can be tolerated exactly when its bytes do not upset. -/
theorem tolerable_iff (h : w.isFile p = .ok true) : Tolerable w p ↔ ¬ Upsets w p := by
  obtain ⟨file, hopen⟩ := Workspace.openFile_of_isFile h
  rw [Tolerable, ← not_exists, not_iff_not]
  constructor
  · rintro ⟨e, hread, hbreaks⟩
    rw [readYaml_of_openFile hopen, mapError_eq_error_iff] at hread
    obtain ⟨y, hvalue, rfl⟩ := hread
    exact ⟨file, y, hopen, hvalue, isUnreadable_yaml.mp hbreaks⟩
  · rintro ⟨file', y, hopen', hvalue, hne⟩
    refine ⟨.yaml y, ?_, isUnreadable_yaml.mpr hne⟩
    rw [readYaml_of_openFile hopen', mapError_eq_error_iff]
    exact ⟨y, hvalue, rfl⟩

/-! ### What ends a resolution -/

theorem passes_iff {looked : List Path} :
    Passes w p looked ↔ Tolerable w p ∧ ∀ q ∈ looked, w.Lookable q :=
  ⟨fun h => ⟨h.tolerable, h.lookable⟩, fun h => ⟨h.1, h.2⟩⟩

theorem solutionPasses_iff :
    SolutionPasses w c p ↔
      (∀ q ∈ lookedAtForProjects w c p ++ (projectsIn w c p).flatMap (lookedAtFor w),
        w.Lookable q) ∧
      Tolerable w p ∧ ∀ q ∈ projectsIn w c p, Tolerable w q := by
  constructor
  · rintro ⟨hsolution, hprojects⟩
    refine ⟨fun q hq => ?_, hsolution.tolerable, fun q hq => (hprojects q hq).tolerable⟩
    rcases List.mem_append.mp hq with hq | hq
    · exact hsolution.lookable q hq
    · obtain ⟨project, hproject, hq⟩ := List.mem_flatMap.mp hq
      exact (hprojects project hproject).lookable q hq
  · rintro ⟨hlook, hp, hprojects⟩
    refine ⟨⟨hp, fun q hq => ?_⟩, fun project hproject => ⟨hprojects project hproject, ?_⟩⟩
    · exact hlook q (List.mem_append_left _ hq)
    · intro q hq
      exact hlook q (List.mem_append_right _ (List.mem_flatMap.mpr ⟨project, hproject, hq⟩))

theorem hasRoom_of_ne {kind : Kind} (hkind : kindAt w c p = kind) (h : kind ≠ .directory) :
    HasRoom w c p := fun hdir => absurd (hkind.symm.trans hdir) h

/-- **A resolution without exclusions gives its units where every path it looks at can be looked at,
there is room for a walk, and every descriptor it opens can be tolerated.** -/
theorem resolve_plain_eq_ok_iff (hpatterns : c.excludePatterns = [])
    (hrespect : c.respectGitignore = false) :
    (resolve w c target).outcome = .ok units ↔
      (∀ q ∈ lookedAt w c (Path.ofString target), w.Lookable q) ∧
      HasRoom w c (Path.ofString target) ∧
      (∀ d ∈ opened w c (Path.ofString target), Tolerable w d.1) ∧
      units = given w c (Path.ofString target) := by
  rw [resolve_eq_ok_iff, lookedAt, List.forall_mem_cons, and_assoc]
  refine and_congr_right fun _ => ?_
  unfold opened given
  cases hkind : kindAt w c (Path.ofString target) with
  | directory =>
    have hdir := isDir_of_kindAt hkind
    show directorySources w c (Path.ofString target) = .ok units ↔ _
    rw [directorySources_eq_ok_iff, hpatterns, hrespect]
    simp only [Workspace.scan_plain_eq_ok_iff hdir]
    constructor
    · rintro ⟨files, ⟨hroom, hlook, rfl⟩, rfl⟩
      exact ⟨hlook, fun _ => hroom, List.forall_mem_nil _, rfl⟩
    · rintro ⟨hlook, hroom, -, rfl⟩
      exact ⟨_, ⟨hroom hkind, hlook, rfl⟩, rfl⟩
  | solution =>
    show (solutionSources w c (Path.ofString target)).outcome = .ok units ↔ _
    rw [solutionSources_eq_ok_iff, solutionPasses_iff, List.forall_mem_cons, List.forall_mem_map,
      and_assoc, and_iff_right (hasRoom_of_ne hkind Kind.noConfusion)]
  | project =>
    show (projectSources w c (Path.ofString target)).outcome = .ok units ↔ _
    rw [projectSources_eq_ok_iff, passes_iff, List.forall_mem_singleton,
      and_iff_right (hasRoom_of_ne hkind Kind.noConfusion)]
    constructor
    · rintro ⟨⟨htol, hlook⟩, hunits⟩
      exact ⟨hlook, htol, hunits⟩
    · rintro ⟨hlook, htol, hunits⟩
      exact ⟨⟨htol, hlook⟩, hunits⟩
  | source =>
    have hroom := hasRoom_of_ne hkind Kind.noConfusion
    show Except.ok [w.normalize (Path.ofString target)] = .ok units ↔ _
    simp [hroom, eq_comm]
  | nothing =>
    have hroom := hasRoom_of_ne hkind Kind.noConfusion
    show Except.ok [] = .ok units ↔ _
    simp [hroom, eq_comm]
  | other =>
    have hroom := hasRoom_of_ne hkind Kind.noConfusion
    show Except.ok [] = .ok units ↔ _
    simp [hroom, eq_comm]

/-- Only the texts of a path's names and of the path itself keep it from being looked at. -/
theorem lookable_of_short (h : ∀ n ∈ p.names, FileTree.tooLong n = false) :
    w.Lookable p ↔ (Spellable p.toString → Text.pathSize p.toString ≤ Workspace.maxPathBytes) := by
  rw [Workspace.lookable_iff, not_and, Workspace.locate_eq_nameTooLong_iff h]
  simp only [Nat.not_lt]

/-! ### The warnings -/

theorem isAboutDescriptor_of_warning? {key : String} {e : Event} (h : warning? w p key = some e) :
    isAboutDescriptor e = true := by
  unfold warning? at h
  cases hread : readYaml w p with
  | error d =>
    rw [hread] at h
    rw [← Option.some.inj h]
    rfl
  | ok data =>
    simp only [hread] at h
    split_ifs at h
    rw [← Option.some.inj h]
    rfl

theorem isAboutDescriptor_of_skippedSource? {q : Path} {e : Event}
    (h : skippedSource? w c p q = some e) : isAboutDescriptor e = false := by
  unfold skippedSource? at h
  split_ifs at h <;> (rw [← Option.some.inj h]; rfl)

theorem isAboutDescriptor_of_skippedProject? {q : Path} {e : Event}
    (h : skippedProject? w c p q = some e) : isAboutDescriptor e = false := by
  unfold skippedProject? at h
  split_ifs at h <;> (rw [← Option.some.inj h]; rfl)

/-- Of the notes of a pass, only the warning is about the descriptor. -/
theorem filter_notes {key : String} {skipped : Path → Option Event} {listed : List Path}
    (h : ∀ q e, skipped q = some e → isAboutDescriptor e = false) :
    ((warning? w p key).toList ++ listed.filterMap skipped).filter isAboutDescriptor =
      (warning? w p key).toList := by
  have hskipped : (listed.filterMap skipped).filter isAboutDescriptor = [] := by
    rw [List.filter_eq_nil_iff]
    intro e he
    obtain ⟨q, -, hq⟩ := List.mem_filterMap.mp he
    simp [h q e hq]
  have hwarning : (warning? w p key).toList.filter isAboutDescriptor =
      (warning? w p key).toList := by
    rw [List.filter_eq_self]
    intro e he
    exact isAboutDescriptor_of_warning? (Option.mem_toList.mp he)
  rw [List.filter_append, hskipped, hwarning, List.append_nil]

theorem filter_projectNotes :
    (projectNotes w c p).filter isAboutDescriptor = (warning? w p "sources").toList :=
  filter_notes fun _ _ => isAboutDescriptor_of_skippedSource?

theorem filter_solutionNotes :
    (solutionNotes w c p).filter isAboutDescriptor = (warning? w p "projects").toList :=
  filter_notes fun _ _ => isAboutDescriptor_of_skippedProject?

/-- **A resolution warns once about each descriptor that lists nothing, in the order in which it
opens them, and about no other.** -/
theorem warnings_of_resolve (h : (resolve w c target).outcome = .ok units) :
    (resolve w c target).events.filter isAboutDescriptor =
      (opened w c (Path.ofString target)).filterMap fun d => warning? w d.1 d.2 := by
  obtain ⟨hlook, hunits⟩ := resolve_eq_ok_iff.mp h
  rw [resolve_of_lookable hlook]
  unfold opened
  cases hkind : kindAt w c (Path.ofString target) with
  | solution =>
    rw [hkind] at hunits
    obtain ⟨hpasses, -⟩ := solutionSources_eq_ok_iff.mp hunits
    show (solutionSources w c (Path.ofString target)).events.filter isAboutDescriptor = _
    rw [solutionSources_events hpasses, List.filter_append, filter_solutionNotes,
      List.filter_flatMap]
    simp only [filter_projectNotes]
    rw [List.filterMap_cons, List.filterMap_map, ← List.filterMap_eq_flatMap_toList]
    cases warning? w (Path.ofString target) "projects" <;> rfl
  | project =>
    rw [hkind] at hunits
    obtain ⟨hpasses, -⟩ := projectSources_eq_ok_iff.mp hunits
    show (projectSources w c (Path.ofString target)).events.filter isAboutDescriptor = _
    rw [projectSources_events hpasses, filter_projectNotes, List.filterMap_cons]
    cases warning? w (Path.ofString target) "sources" <;> rfl
  | directory => rfl
  | nothing => rfl
  | source => rfl
  | other => rfl

/-! ### The other projects of a solution -/

theorem tolerable_of_warning? {key : String} (h : warning? w p key = none) : Tolerable w p := by
  rintro e ⟨hread, -⟩
  rw [warning?, hread] at h
  cases h

/-- A project without a warning. -/
def isFine (w : Workspace) (p : Path) : Bool := (warning? w p "sources").isNone

theorem sourcesIn_of_not_isFine (h : isFine w p = false) : sourcesIn w c p = [] := by
  obtain ⟨e, he⟩ := Option.isSome_iff_exists.mp (Option.isNone_eq_false_iff.mp h)
  rw [sourcesIn, listing_of_warning he]
  rfl

/-- A solution gives the sources of its projects without a warning. -/
theorem flatMap_sourcesIn (ps : List Path) :
    (ps.filter (isFine w)).flatMap (sourcesIn w c) = ps.flatMap (sourcesIn w c) :=
  flatMap_filter_of_nil fun _ _ => sourcesIn_of_not_isFine

variable {other : String} {q bad : Path} {before after : List Path}

/-- Listing one more project that has a warning does not change which projects without one there
are. -/
theorem filter_isFine_projectsIn (hp : listing w p "projects" = before ++ bad :: after)
    (hq : listing w q "projects" = before ++ after) (hbad : isFine w bad = false) :
    (projectsIn w c p).filter (isFine w) = (projectsIn w c q).filter (isFine w) := by
  rw [projectsIn, projectsIn, filter_dedupe, filter_dedupe, hp, hq, List.filter_filter,
    List.filter_filter, List.filter_append, List.filter_append, List.filter_cons, if_neg]
  simp [hbad]

/-- **A solution that lists one more project, and that project has a warning, gives the same
units.** -/
theorem resolve_without (hkind : kindAt w c (Path.ofString target) = .solution)
    (hother : kindAt w c (Path.ofString other) = .solution)
    (hlists : warning? w (Path.ofString other) "projects" = none)
    (hlisting : listing w (Path.ofString target) "projects" = before ++ bad :: after)
    (hwithout : listing w (Path.ofString other) "projects" = before ++ after)
    (hbad : isFine w bad = false) (h : (resolve w c target).outcome = .ok units) :
    (resolve w c other).outcome = .ok units := by
  obtain ⟨-, hunits⟩ := resolve_eq_ok_iff.mp h
  rw [hkind] at hunits
  obtain ⟨hpasses, hgiven⟩ := solutionSources_eq_ok_iff.mp hunits
  have hsubset : ∀ r ∈ before ++ after, r ∈ before ++ bad :: after := by
    intro r hr
    rcases List.mem_append.mp hr with hr | hr
    · exact List.mem_append_left _ hr
    · exact List.mem_append_right _ (List.mem_cons_of_mem _ hr)
  have hlook : w.Lookable (Path.ofString other) := by
    obtain ⟨hfile, -⟩ := isFile_of_kindAt hother Kind.noConfusion Kind.noConfusion
    exact ⟨true, hfile⟩
  refine resolve_eq_ok_iff.mpr ⟨hlook, ?_⟩
  rw [hother]
  refine solutionSources_eq_ok_iff.mpr ⟨⟨⟨tolerable_of_warning? hlists, ?_⟩, ?_⟩, ?_⟩
  · intro r hr
    obtain ⟨hmem, hproject⟩ := List.mem_filter.mp hr
    rw [hwithout] at hmem
    refine hpasses.solution.lookable r (List.mem_filter.mpr ⟨?_, hproject⟩)
    rw [hlisting]
    exact hsubset r hmem
  · intro r hr
    obtain ⟨hmem, hkeeps⟩ := List.mem_filter.mp ((mem_dedupe _ _).mp hr)
    rw [hwithout] at hmem
    refine hpasses.projects r ((mem_dedupe _ _).mpr (List.mem_filter.mpr ⟨?_, hkeeps⟩))
    rw [hlisting]
    exact hsubset r hmem
  · rw [hgiven, ← flatMap_sourcesIn, filter_isFine_projectsIn hlisting hwithout hbad,
      flatMap_sourcesIn]

/-! ### All in all -/

theorem level_of_isAboutDescriptor {e : Event} (h : isAboutDescriptor e = true) :
    e.level = .warning := by
  cases e <;> first | rfl | cases h

theorem isFile_of_mem_opened {d : Path × String} (h : d ∈ opened w c p) :
    w.isFile d.1 = .ok true := by
  unfold opened at h
  cases hkind : kindAt w c p with
  | solution =>
    rw [hkind] at h
    rcases List.mem_cons.mp h with rfl | h
    · exact (isFile_of_kindAt hkind Kind.noConfusion Kind.noConfusion).1
    · obtain ⟨q, hq, rfl⟩ := List.mem_map.mp h
      exact (isFile_of_mem_projectsIn hq).1
  | project =>
    rw [hkind] at h
    rw [List.mem_singleton.mp h]
    exact (isFile_of_kindAt hkind Kind.noConfusion Kind.noConfusion).1
  | directory | nothing | source | other =>
    rw [hkind] at h
    cases h

theorem exists_units_iff :
    (∃ units, (resolve w {} target).outcome = .ok units) ↔
      (∀ q ∈ lookedAt w {} (Path.ofString target), w.Lookable q) ∧
      HasRoom w {} (Path.ofString target) ∧
      ∀ d ∈ opened w {} (Path.ofString target), ¬ Upsets w d.1 := by
  have htol : ∀ d ∈ opened w {} (Path.ofString target), Tolerable w d.1 ↔ ¬ Upsets w d.1 :=
    fun d hd => tolerable_iff (isFile_of_mem_opened hd)
  have hplain : ∀ units, (resolve w {} target).outcome = .ok units ↔ _ :=
    fun units => resolve_plain_eq_ok_iff rfl rfl
  simp only [hplain]
  constructor
  · rintro ⟨units, hlook, hroom, hall, -⟩
    exact ⟨hlook, hroom, fun d hd => (htol d hd).mp (hall d hd)⟩
  · rintro ⟨hlook, hroom, hall⟩
    exact ⟨_, hlook, hroom, fun d hd => (htol d hd).mpr (hall d hd), rfl⟩

/-- **What descriptors do to a resolution.**  It gives its units exactly where no path it looks at is
too long, no directory it walks is too deep and no descriptor it opens upsets it.  Then each
descriptor that lists nothing has left one warning and gives nothing.  And a solution that lists one
project more, and that one lists nothing, gives the same units. -/
theorem resolve_with_descriptors (w : Workspace) (target : String) :
    ((∃ units, (resolve w {} target).outcome = .ok units) ↔
      (∀ q ∈ lookedAt w {} (Path.ofString target), w.Lookable q) ∧
      HasRoom w {} (Path.ofString target) ∧
      ∀ d ∈ opened w {} (Path.ofString target), ¬ Upsets w d.1) ∧
    (∀ q : Path, (∀ n ∈ q.names, FileTree.tooLong n = false) →
      (w.Lookable q ↔
        (Spellable q.toString → Text.pathSize q.toString ≤ Workspace.maxPathBytes))) ∧
    (∀ units, (resolve w {} target).outcome = .ok units →
      units = given w {} (Path.ofString target) ∧
      (resolve w {} target).events.filter isAboutDescriptor =
        (opened w {} (Path.ofString target)).filterMap (fun d => warning? w d.1 d.2) ∧
      ∀ d ∈ opened w {} (Path.ofString target), ∀ e, warning? w d.1 d.2 = some e →
        e.level = .warning ∧ listing w d.1 d.2 = []) ∧
    (∀ other before bad after units,
      kindAt w {} (Path.ofString target) = .solution →
      kindAt w {} (Path.ofString other) = .solution →
      warning? w (Path.ofString other) "projects" = none →
      listing w (Path.ofString target) "projects" = before ++ bad :: after →
      listing w (Path.ofString other) "projects" = before ++ after →
      warning? w bad "sources" ≠ none →
      (resolve w {} target).outcome = .ok units → (resolve w {} other).outcome = .ok units) := by
  refine ⟨exists_units_iff, fun q hq => lookable_of_short hq, ?_, ?_⟩
  · intro units hunits
    obtain ⟨-, -, -, hgiven⟩ := (resolve_plain_eq_ok_iff rfl rfl).mp hunits
    refine ⟨hgiven, warnings_of_resolve hunits, fun d _ e he => ⟨?_, listing_of_warning he⟩⟩
    exact level_of_isAboutDescriptor (isAboutDescriptor_of_warning? he)
  · intro other before bad after units hkind hother hlists hlisting hwithout hbad hunits
    have hfine : isFine w bad = false := by
      rw [isFine, Option.isNone_eq_false_iff, Option.isSome_iff_ne_none]
      exact hbad
    exact resolve_without hkind hother hlists hlisting hwithout hfine hunits

/-- A solution of two projects, of which the first is a byte that is no text. -/
theorem resolve_of_undecodable :
    (resolve ⟨.dir [("s.lksln", .file ⟨"projects: [a.lkproj, b.lkproj]".toUTF8.toList⟩),
        ("a.lkproj", .file ⟨[0xFF]⟩),
        ("b.lkproj", .file ⟨"sources: [m.py]".toUTF8.toList⟩),
        ("m.py", .file ⟨[]⟩)], [], [], .bare⟩ {} "s.lksln").outcome =
      .error (.yaml .undecodable) := by
  decide +kernel

end LintHost.Target
