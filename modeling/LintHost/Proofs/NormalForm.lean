/-
Normal forms as texts.

A path is given as a text and its normal form is handed on as one, `normalText`.
`normalText_sound` says what such a text looks like and what it means.  It is `Tidy`: it starts at
a root, every part behind the root is a name and no double point, and nothing but a root ends with a
slash.  The root with two slashes is kept, and only that.  Nothing is left to be done, from whatever
working directory it is looked at.

A text means what the tree has where its parts lead, `Workspace.Names`.  The parts are looked up as
they are written, so a double point leads out of a directory that is there, and a slash at the end
asks for one.  A normal form is found without a look at the tree.  It names what the text names,
because every directory on the way of a walk that arrives is there.  Where a text names nothing its
normal form may still name something.
-/
import LintHost.Proofs.Lookup

namespace LintHost

namespace Path

/-! ### The text of a normal path -/

/-- The absolute text without double points for a text, seen from a working directory. -/
def normalText (cwd : Path) (s : String) : String := (normalize cwd (ofString s)).toString

/-- The parts of a text behind the slashes at its front, and none where nothing is behind them. -/
def components (s : List Char) : List (List Char) :=
  match s.dropWhile (· == '/') with
  | [] => []
  | c :: rest => splitSlashes (c :: rest)

/-- Is the text of an absolute path with nothing in it that could be left out. -/
structure Tidy (s : String) : Prop where
  absolute : ['/'] <+: s.toList
  root : ¬['/', '/', '/'] <+: s.toList
  parts : ∀ part ∈ components s.toList, part ≠ [] ∧ part ≠ ['.'] ∧ part ≠ ['.', '.']
  ending : ['/'] <:+ s.toList → s = "/" ∨ s = "//"

variable {cwd p : Path} {s : String} {names : List String}

theorem toList_toString (h : p.root ≠ .relative) :
    p.toString.toList = rootText p.root ++ joinNames p.names := by
  rw [toString, if_neg (by simp [h]), String.toList_ofList]

/-- A text has the root with two slashes where it starts with two and no third. -/
theorem rootOf_eq_doubleSlash_iff {s : List Char} :
    rootOf s = .doubleSlash ↔ ['/', '/'] <+: s ∧ ¬['/', '/', '/'] <+: s := by
  fun_cases rootOf s with
  | case1 rest => simp
  | case2 rest hthird =>
    refine iff_of_true rfl ⟨⟨rest, rfl⟩, ?_⟩
    rintro ⟨tail, htail⟩
    exact hthird tail (by simpa using htail.symm)
  | case3 rest _ hsecond =>
    refine iff_of_false (by simp) ?_
    rintro ⟨⟨tail, htail⟩, -⟩
    exact hsecond tail (by simpa using htail.symm)
  | case4 rest _ hsecond =>
    refine iff_of_false (by simp) ?_
    rintro ⟨⟨tail, htail⟩, -⟩
    exact hsecond tail (by simpa using htail.symm)

/-- Joined names do not end with a slash. -/
theorem not_suffix_joinNames (h : ∀ n ∈ names, IsName n) : ¬['/'] <:+ joinNames names := by
  fun_induction joinNames names with
  | case1 => simp
  | case2 n =>
    intro hslash
    exact (h n (by simp)).noSlash (hslash.subset (by simp))
  | case3 n rest hrest ih =>
    have hnames : ∀ m ∈ rest, IsName m := fun m hm => h m (by simp [hm])
    obtain ⟨c, s, hjoin, -⟩ := joinNames_eq_cons hrest hnames
    have hbehind : joinNames rest <:+ n.toList ++ '/' :: joinNames rest :=
      ⟨n.toList ++ ['/'], by simp⟩
    intro hslash
    exact ih hnames (List.suffix_of_suffix_length_le hslash hbehind (by rw [hjoin]; simp))

/-- Joined names do not start with a slash. -/
theorem not_prefix_joinNames (h : ∀ n ∈ names, IsName n) : ¬['/'] <+: joinNames names := by
  by_cases hne : names = []
  · rw [hne]
    simp [joinNames]
  · obtain ⟨c, s, hjoin, hc⟩ := joinNames_eq_cons hne h
    rw [hjoin, List.cons_prefix_cons]
    exact fun hslash => hc hslash.1.symm

theorem dropWhile_joinNames (h : ∀ n ∈ names, IsName n) :
    (joinNames names).dropWhile (· == '/') = joinNames names := by
  by_cases hne : names = []
  · rw [hne]
    rfl
  · obtain ⟨c, s, hjoin, hc⟩ := joinNames_eq_cons hne h
    rw [hjoin, List.dropWhile_cons_of_neg (by simpa using hc)]

theorem components_text (root : Root) (h : ∀ n ∈ names, IsName n) :
    components (rootText root ++ joinNames names) = names.map String.toList := by
  have hbehind : (rootText root ++ joinNames names).dropWhile (· == '/') = joinNames names := by
    cases root <;> simp [rootText, dropWhile_joinNames h]
  rw [components, hbehind]
  by_cases hne : names = []
  · rw [hne]
    rfl
  · obtain ⟨c, s, hjoin, -⟩ := joinNames_eq_cons hne h
    rw [← splitSlashes_joinNames hne h, hjoin]

/-- The parts of the text of a normal path are its names, behind the empty ones at its root. -/
theorem parts_text {root : Root} (habs : root ≠ .relative) (h : ∀ n ∈ names, IsName n) :
    ∃ k, (splitSlashes (rootText root ++ joinNames names)).map String.ofList =
      List.replicate k "" ++ names := by
  by_cases hne : names = []
  · subst hne
    cases root with
    | relative => exact absurd rfl habs
    | slash => exact ⟨2, rfl⟩
    | doubleSlash => exact ⟨3, rfl⟩
  · have hnames : (splitSlashes (joinNames names)).map String.ofList = names := by
      rw [splitSlashes_joinNames hne h, List.map_map]
      exact List.map_id'' (fun n => String.ofList_toList) names
    cases root with
    | relative => exact absurd rfl habs
    | slash =>
      refine ⟨1, ?_⟩
      rw [rootText, List.singleton_append, splitSlashes_slash, List.map_cons, hnames]
      rfl
    | doubleSlash =>
      refine ⟨2, ?_⟩
      rw [rootText, List.cons_append, List.singleton_append, splitSlashes_slash,
        splitSlashes_slash, List.map_cons, List.map_cons, hnames]
      rfl

/-- The text of a normal path is tidy. -/
theorem Normal.tidy (h : p.Normal) : Tidy p.toString := by
  have htext := toList_toString h.absolute
  have hstart := not_prefix_joinNames h.names
  refine ⟨?_, ?_, ?_, ?_⟩
  · obtain ⟨s, hs⟩ := h.toString_eq_cons
    exact ⟨s, hs.symm⟩
  · intro hthird
    rw [htext] at hthird
    cases hroot : p.root with
    | relative => exact h.absolute hroot
    | slash =>
      rw [hroot, rootText, List.singleton_append, List.cons_prefix_cons] at hthird
      exact hstart ((List.prefix_append ['/'] ['/']).trans hthird.2)
    | doubleSlash =>
      rw [hroot, rootText, List.cons_append, List.singleton_append, List.cons_prefix_cons,
        List.cons_prefix_cons] at hthird
      exact hstart hthird.2.2
  · intro part hpart
    rw [htext, components_text p.root h.names] at hpart
    obtain ⟨n, hn, rfl⟩ := List.mem_map.mp hpart
    refine ⟨(h.names n hn).ne_nil, ?_, ?_⟩
    · intro hpoint
      exact (h.names n hn).ne_point (String.toList_inj.mp hpoint)
    · intro hup
      obtain rfl : n = up := String.toList_inj.mp hup
      exact h.clean hn
  · intro hslash
    rw [htext] at hslash
    by_cases hne : p.names = []
    · rw [← String.toList_inj, ← String.toList_inj, htext, hne]
      cases hroot : p.root with
      | relative => exact absurd hroot h.absolute
      | slash => exact .inl rfl
      | doubleSlash => exact .inr rfl
    · obtain ⟨c, s, hjoin, -⟩ := joinNames_eq_cons hne h.names
      have hend : ['/'] <:+ joinNames p.names :=
        List.suffix_of_suffix_length_le hslash (List.suffix_append _ _) (by rw [hjoin]; simp)
      exact absurd hend (not_suffix_joinNames h.names)

theorem normal_normalText (hcwd : cwd.Normal) (s : String) : (normalize cwd (ofString s)).Normal :=
  normal_normalize hcwd.absolute hcwd.names fun _ => isName_of_mem_ofString

/-- Seen from below the root with one slash, a normal form has the root with two where its path
does. -/
theorem root_normalize_eq_doubleSlash_iff (hroot : cwd.root = .slash) :
    (normalize cwd p).root = .doubleSlash ↔ p.root = .doubleSlash := by
  unfold normalize
  by_cases hrel : p.root = .relative
  · simp [hrel, join, hroot]
  · simp [hrel]

theorem rootOf_normalText (hcwd : cwd.Normal) (s : String) :
    rootOf (normalText cwd s).toList = (normalize cwd (ofString s)).root :=
  congrArg Path.root (normal_normalText hcwd s).ofString_toString

/-- **Two slashes at the front are kept, and only they.** -/
theorem doubleSlash_normalText (hroot : cwd.root = .slash) (hcwd : cwd.Normal) (s : String) :
    ['/', '/'] <+: (normalText cwd s).toList ↔
      ['/', '/'] <+: s.toList ∧ ¬['/', '/', '/'] <+: s.toList := by
  have htidy : Tidy (normalText cwd s) := (normal_normalText hcwd s).tidy
  calc ['/', '/'] <+: (normalText cwd s).toList
      ↔ rootOf (normalText cwd s).toList = .doubleSlash := by
        rw [rootOf_eq_doubleSlash_iff, and_iff_left htidy.root]
    _ ↔ rootOf s.toList = .doubleSlash := by
        rw [rootOf_normalText hcwd, root_normalize_eq_doubleSlash_iff hroot]
        rfl
    _ ↔ _ := rootOf_eq_doubleSlash_iff

/-- **Nothing is left to be done.** -/
theorem normalText_normalText (hcwd : cwd.Normal) (cwd' : Path) (s : String) :
    normalText cwd' (normalText cwd s) = normalText cwd s := by
  have hnormal := normal_normalText hcwd s
  rw [normalText, normalText, hnormal.ofString_toString, hnormal.normalize_eq]

end Path

/-! ### What a normal form names -/

namespace FileTree

variable {root : FileTree}

/-- The root of a tree with a directory in it is one. -/
theorem exists_root_of_find? {here : List String} {es : List (String × FileTree)}
    (h : root.find? here = some (.dir es)) : ∃ es', root.find? [] = some (.dir es') := by
  cases root with
  | dir es' => exact ⟨es', rfl⟩
  | file f => cases here <;> cases h

/-- Empty parts in front of names lead nowhere. -/
theorem walk_replicate {here : List String} {es : List (String × FileTree)}
    (hdir : root.find? here = some (.dir es)) (k : Nat) (names : List String) :
    root.walk here (List.replicate k "" ++ names) = root.walk here names := by
  induction k with
  | zero => rfl
  | succ k ih =>
    rw [List.replicate_succ, List.cons_append, walk_of_step hdir (.stay (.inl rfl)), ih]

end FileTree

namespace Workspace

open FileTree

variable {w : Workspace} {s : String} {place : List String} {t : FileTree}

theorem Names.dir (h : w.Names s place t) :
    ∃ es, w.root.find? (w.startOf (Path.ofString s)) = some (.dir es) := by
  have hwalk := h.walked
  cases hparts : (Path.splitSlashes s.toList).map String.ofList with
  | nil => exact absurd (List.map_eq_nil_iff.mp hparts) (Path.splitSlashes_ne_nil _)
  | cons n rest =>
    rw [hparts] at hwalk
    obtain ⟨es, -, hdir, -⟩ := step_of_walk hwalk
    exact ⟨es, hdir⟩

/-- **What a text names is what its normal form names.** -/
theorem Names.normalText (hcwd : w.cwdPath.Normal) (hshort : ∀ n ∈ w.cwd, tooLong n = false)
    (h : w.Names s place t) : w.Names (Path.normalText w.cwdPath s) place t := by
  have hnormal := Path.normal_normalText hcwd s
  have hwalk := walk_filter_isName h.walked
  have hplace : (Path.normalize w.cwdPath (Path.ofString s)).names = place := by
    rw [Path.normalize_names hcwd.clean,
      walk_eq_collapseOnto (fun _ => Path.isName_of_mem_ofString) hwalk]
    rfl
  have hlong : ∀ n ∈ (Path.normalize w.cwdPath (Path.ofString s)).names, tooLong n = false := by
    intro n hn
    rcases Path.mem_normalize_names hn with hn | hn
    · exact hshort n hn
    · exact not_tooLong_of_walk hwalk n hn
  obtain ⟨es, hstart⟩ := h.dir
  obtain ⟨es', hdir⟩ := exists_root_of_find? hstart
  obtain ⟨k, hparts⟩ := Path.parts_text hnormal.absolute hnormal.names
  have hroot : w.startOf (Path.ofString (Path.normalText w.cwdPath s)) = [] := by
    rw [startOf, if_neg]
    rw [Path.normalText, hnormal.ofString_toString]
    exact hnormal.absolute
  refine ⟨?_, ?_, h.found⟩
  · rintro hempty
    obtain ⟨rest, hrest⟩ := hnormal.toString_eq_cons
    rw [← Path.normalText, hempty] at hrest
    cases hrest
  · rw [hroot, Path.normalText, Path.toList_toString hnormal.absolute, hparts,
      walk_replicate hdir, ← hplace]
    exact walk_of_clean hnormal.names hnormal.clean hlong (by rw [List.nil_append, hplace, h.found])

/-- **A normal form is tidy, keeps the root with two slashes, is its own normal form, and names what
the text names**, in every tree in which the working directory has names that can be looked up. -/
theorem normalText_sound (cwd : Path) (hroot : cwd.root = .slash) (hcwd : cwd.Normal) (s : String) :
    Path.Tidy (Path.normalText cwd s) ∧
    (['/', '/'] <+: (Path.normalText cwd s).toList ↔
      ['/', '/'] <+: s.toList ∧ ¬['/', '/', '/'] <+: s.toList) ∧
    (∀ cwd', Path.normalText cwd' (Path.normalText cwd s) = Path.normalText cwd s) ∧
    ∀ (w : Workspace) place t, w.cwdPath = cwd → (∀ n ∈ w.cwd, tooLong n = false) →
      w.Names s place t → w.Names (Path.normalText cwd s) place t := by
  refine ⟨(Path.normal_normalText hcwd s).tidy, Path.doubleSlash_normalText hroot hcwd s,
    fun cwd' => Path.normalText_normalText hcwd cwd' s, ?_⟩
  rintro w place t rfl hshort hnames
  exact hnames.normalText hcwd hshort

/-- A path out of a directory and past another one. -/
theorem normalText_sound_of_doublePoint :
    let m : FileTree := .file ⟨[]⟩
    let shelf : FileTree := .dir [("b", .dir []), ("c", .dir []), ("m", m)]
    let w : Workspace := ⟨.dir [("a", shelf)], ["a", "b"], [], .bare⟩
    w.cwdPath.root = .slash ∧ w.cwdPath.Normal ∧ w.Names "..//c/./../m" ["a", "m"] m ∧
      Path.normalText w.cwdPath "..//c/./../m" = "/a/m" ∧ Path.Tidy "/a/m" ∧
      w.Names "/a/m" ["a", "m"] m := by
  intro m shelf w
  have hcwd : w.cwdPath.Normal := ⟨by decide, by decide, by decide⟩
  have hnames : w.Names "..//c/./../m" ["a", "m"] m := ⟨by decide, rfl, rfl⟩
  have htext : Path.normalText w.cwdPath "..//c/./../m" = "/a/m" := by decide
  obtain ⟨htidy, -, -, hsame⟩ := normalText_sound w.cwdPath rfl hcwd "..//c/./../m"
  have hthere := hsame w _ _ rfl (by decide) hnames
  rw [htext] at htidy hthere
  exact ⟨rfl, hcwd, hnames, htext, htidy, hthere⟩

end Workspace

end LintHost
