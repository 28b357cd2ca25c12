/-
What writing a file leaves.

`lies` is what can be seen at a place without going further: nothing, a directory, or a file with
its content.  Putting a file into a tree changes what lies at that place and at no other,
`lies_insert`, provided that its directory is there and nothing lies below it; the directories on
the way stay the directories they were, and get or keep an entry.

So every walk that arrived before arrives at the same place afterwards, `walk_mono`, and a path that
a file was written to leads to that file: `writeFile_eq_ok`.  Whether a file can be written depends
on the path alone, and not on what is written.
-/
import LintHost.Proofs.Lookup

namespace LintHost

/-! ### Texts as paths -/

namespace Path

/-- A character between slashes is in one of the parts. -/
theorem exists_part_of_mem {s : List Char} {c : Char} (h : c ∈ s) (hc : c ≠ '/') :
    ∃ part ∈ splitSlashes s, c ∈ part := by
  induction s with
  | nil => cases h
  | cons d s ih =>
    by_cases hd : d = '/'
    · rw [hd, splitSlashes_slash]
      rcases List.mem_cons.mp h with hsame | h
      · exact absurd (hsame.trans hd) hc
      · obtain ⟨part, hpart, hmem⟩ := ih h
        exact ⟨part, List.mem_cons_of_mem _ hpart, hmem⟩
    · rw [splitSlashes, if_neg hd]
      cases hs : splitSlashes s with
      | nil =>
        rcases List.mem_cons.mp h with rfl | h
        · exact ⟨[c], List.mem_cons_self, List.mem_cons_self⟩
        · obtain ⟨part, hpart, -⟩ := ih h
          rw [hs] at hpart
          cases hpart
      | cons first more =>
        rcases List.mem_cons.mp h with rfl | h
        · exact ⟨c :: first, List.mem_cons_self, List.mem_cons_self⟩
        · obtain ⟨part, hpart, hmem⟩ := ih h
          rw [hs] at hpart
          rcases List.mem_cons.mp hpart with rfl | hpart
          · exact ⟨d :: part, List.mem_cons_self, List.mem_cons_of_mem _ hmem⟩
          · exact ⟨part, List.mem_cons_of_mem _ hpart, hmem⟩

/-- Nothing is lost of a text but slashes and points when it is read as a path. -/
theorem spellable_of_ofString {s : String} (h : Spellable (ofString s).toString) : Spellable s := by
  intro c hc
  by_cases hslash : c = '/'
  · rw [hslash]
    decide
  by_cases hpoint : c = '.'
  · rw [hpoint]
    decide
  obtain ⟨part, hpart, hmem⟩ := exists_part_of_mem hc hslash
  have hname : isName part = true := by
    rw [isName, Bool.and_eq_true]
    refine ⟨?_, ?_⟩
    · cases part with
      | nil => cases hmem
      | cons d part => rfl
    · rw [bne_iff_ne]
      rintro rfl
      exact hpoint (List.mem_singleton.mp hmem)
  have hnames : String.ofList part ∈ (ofString s).names :=
    List.mem_map.mpr ⟨part, List.mem_filter.mpr ⟨hpart, hname⟩, rfl⟩
  refine spellable_toString.mp h _ hnames c ?_
  rw [String.toList_ofList]
  exact hmem

end Path

namespace FileTree

/-- What is seen of something from outside: the content of a file, and nothing of a directory. -/
def outside : FileTree → Option File
  | .file f => some f
  | .dir _ => none

/-- What lies at a place, without what lies below it. -/
def lies (t : FileTree) (names : List String) : Option (Option File) := (t.find? names).map outside

theorem lies_eq_dir_iff {t : FileTree} {names : List String} :
    t.lies names = some none ↔ ∃ es, t.find? names = some (.dir es) := by
  unfold lies
  cases h : t.find? names with
  | none => simp
  | some s => cases s <;> simp [outside]

theorem isSome_lies {t : FileTree} {names : List String} :
    (t.lies names).isSome = (t.find? names).isSome := by
  rw [lies, Option.isSome_map]

/-! ### Putting something into a tree -/

theorem lookup_putEntry_self (n : String) (s : FileTree) (es : List (String × FileTree)) :
    (putEntry n s es).lookup n = some s := by
  induction es with
  | nil => rw [putEntry, List.lookup_cons_self]
  | cons e rest ih =>
    obtain ⟨m, old⟩ := e
    rw [putEntry]
    by_cases hm : m = n
    · rw [if_pos hm, hm, List.lookup_cons_self]
    · have hne : (n == m) = false := beq_eq_false_iff_ne.mpr (Ne.symm hm)
      rw [if_neg hm, List.lookup_cons, hne]
      exact ih

theorem lookup_putEntry_of_ne {m n : String} (h : m ≠ n) (s : FileTree)
    (es : List (String × FileTree)) : (putEntry n s es).lookup m = es.lookup m := by
  have hmn : (m == n) = false := beq_eq_false_iff_ne.mpr h
  induction es with
  | nil =>
    rw [putEntry, List.lookup_cons, hmn]
  | cons e rest ih =>
    obtain ⟨k, old⟩ := e
    rw [putEntry]
    by_cases hk : k = n
    · rw [if_pos hk, hk, List.lookup_cons, List.lookup_cons, hmn]
    · rw [if_neg hk, List.lookup_cons, List.lookup_cons, ih]

theorem find?_insert_self (t s : FileTree) (names : List String) :
    (t.insert s names).find? names = some s := by
  induction names generalizing t with
  | nil => rw [insert, find?]
  | cons n rest ih =>
    rw [insert, find?, entries, lookup_putEntry_self]
    exact ih _

/-- What leads to something leads through directories. -/
theorem dir_of_find?_append {t s : FileTree} {front back : List String} {n : String}
    (h : t.find? (front ++ n :: back) = some s) : ∃ es, t.find? front = some (.dir es) := by
  have hsplit : front ++ n :: back = front ++ [n] ++ back := by simp
  rw [hsplit, find?_append] at h
  obtain ⟨u, hu, -⟩ := Option.bind_eq_some_iff.mp h
  obtain ⟨es, hes, -⟩ := dir_of_find?_snoc hu
  exact ⟨es, hes⟩

/-- A place that a file can be put at: everything above it is a directory, and nothing lies below
it. -/
structure Free (t : FileTree) (place : List String) : Prop where
  above : ∀ front n back, place = front ++ n :: back → t.lies front = some none
  below : ∀ more, more ≠ [] → t.lies (place ++ more) = none

theorem free_of_file {t : FileTree} {place : List String} {f : File}
    (h : t.find? place = some (.file f)) : t.Free place := by
  refine ⟨?_, ?_⟩
  · rintro front n back rfl
    exact lies_eq_dir_iff.mpr (dir_of_find?_append h)
  · intro more hmore
    obtain ⟨n, rest, rfl⟩ := List.exists_cons_of_ne_nil hmore
    rw [lies, find?_append, h]
    rfl

theorem free_of_missing {t : FileTree} {there : List String} {n : String}
    {es : List (String × FileTree)} (h : t.find? there = some (.dir es)) (hn : es.lookup n = none) :
    t.Free (there ++ [n]) := by
  refine ⟨?_, ?_⟩
  · intro front m back hplace
    rcases List.eq_nil_or_concat back with rfl | ⟨middle, last, rfl⟩
    · have hlast : there = front := (List.append_inj' hplace rfl).1
      rw [← hlast]
      exact lies_eq_dir_iff.mpr ⟨es, h⟩
    · have hsplit : there ++ [n] = (front ++ m :: middle) ++ [last] := by
        rw [hplace]
        simp
      have hthere : there = front ++ m :: middle := (List.append_inj' hsplit rfl).1
      rw [hthere] at h
      exact lies_eq_dir_iff.mpr (dir_of_find?_append h)
  · intro more _
    rw [lies, List.append_assoc, find?_append, h]
    simp [find?, entries, hn]

/-- **Putting a file into a tree changes what lies at its place, and nowhere else.** -/
theorem lies_insert {t : FileTree} {place names : List String} (h : t.Free place) (f : File)
    (hne : names ≠ place) : (t.insert (.file f) place).lies names = t.lies names := by
  induction place generalizing t names with
  | nil =>
    obtain ⟨n, rest, rfl⟩ := List.exists_cons_of_ne_nil hne
    have hnone := h.below (n :: rest) (List.cons_ne_nil _ _)
    rw [List.nil_append] at hnone
    rw [hnone]
    rfl
  | cons n rest ih =>
    obtain ⟨es, hes⟩ := lies_eq_dir_iff.mp (h.above [] n rest rfl)
    obtain rfl : t = .dir es := Option.some.inj hes
    cases names with
    | nil => rfl
    | cons m names =>
      rw [lies, lies, insert, find?, find?, entries, entries]
      by_cases hm : m = n
      · subst hm
        have hnames : names ≠ rest := fun hsame => hne (by rw [hsame])
        rw [lookup_putEntry_self]
        cases hl : es.lookup m with
        | some b =>
          have hfree : b.Free rest := by
            refine ⟨?_, ?_⟩
            · rintro front k back rfl
              have habove := h.above (m :: front) k back rfl
              rw [lies, find?, entries, hl] at habove
              exact habove
            · intro more hmore
              have hbelow := h.below more hmore
              rw [List.cons_append, lies, find?, entries, hl] at hbelow
              exact hbelow
          exact ih hfree hnames
        | none =>
          -- Nothing is there yet, so that the place is the very entry.
          have hrest : rest = [] := by
            cases rest with
            | nil => rfl
            | cons k back =>
              have habove := h.above [m] k back rfl
              rw [lies, find?, entries, hl] at habove
              cases habove
          subst hrest
          obtain ⟨k, more, rfl⟩ := List.exists_cons_of_ne_nil hnames
          rfl
      · rw [lookup_putEntry_of_ne hm]

/-! ### Walks in a tree that has grown -/

/-- A walk arrives where it arrived before, in a tree that has kept its directories and has
everything that was there. -/
theorem walk_mono {root root' : FileTree} {here there names : List String}
    (hdir : ∀ q, root.lies q = some none → root'.lies q = some none)
    (hsome : ∀ q, (root.lies q).isSome → (root'.lies q).isSome)
    (h : root.walk here names = .ok there) : root'.walk here names = .ok there := by
  induction names generalizing here with
  | nil => exact h
  | cons n rest ih =>
    obtain ⟨es, next, hes, hstep, hwalk⟩ := step_of_walk h
    obtain ⟨es', hes'⟩ := lies_eq_dir_iff.mp (hdir here (lies_eq_dir_iff.mpr ⟨es, hes⟩))
    have hstep' : Step root' here n next := by
      cases hstep with
      | stay hstay => exact .stay hstay
      | up hup => exact .up hup
      | down hstay hup hshort hentry =>
        rw [← isSome_lies] at hentry
        have hkept := hsome _ hentry
        rw [isSome_lies] at hkept
        exact .down hstay hup hshort hkept
    rw [walk_of_step hes' hstep']
    exact ih hwalk

end FileTree

namespace Workspace

variable {w w' : Workspace} {p : Path}

/-- Two workspaces differ at most in what lies at one place. -/
structure SameBut (place : List String) (w w' : Workspace) : Prop where
  cwd : w'.cwd = w.cwd
  home : w'.home = w.home
  lies : ∀ names, names ≠ place → w'.root.lies names = w.root.lies names

/-- A file that is put where one can be put is all that changes, and its place is found by every
walk that leads to it. -/
theorem sameBut_insert {place : List String} (h : w.root.Free place) (f : File) :
    SameBut place w { w with root := w.root.insert (.file f) place } :=
  ⟨rfl, rfl, fun _ hne => FileTree.lies_insert h f hne⟩

theorem walk_insert {place here there names : List String} (h : w.root.Free place) (f : File)
    (hplace : w.root.lies place ≠ some none) (hwalk : w.root.walk here names = .ok there) :
    (w.root.insert (.file f) place).walk here names = .ok there := by
  have hself : (w.root.insert (.file f) place).lies place = some (some f) := by
    rw [FileTree.lies, FileTree.find?_insert_self]
    rfl
  refine FileTree.walk_mono ?_ ?_ hwalk
  · intro q hq
    by_cases hqp : q = place
    · rw [hqp] at hq
      exact absurd hq hplace
    · rw [FileTree.lies_insert h f hqp]
      exact hq
  · intro q hq
    by_cases hqp : q = place
    · rw [hqp, hself]
      rfl
    · rw [FileTree.lies_insert h f hqp]
      exact hq

/-- A step from a directory that leads to nothing asks for an entry that is not there. -/
theorem step_of_missing {root : FileTree} {there : List String} {n : String}
    {es : List (String × FileTree)} (hdir : root.find? there = some (.dir es)) (hup : n ≠ Path.up)
    (hmissing : ∀ place t, root.walk there [n] = .ok place → root.find? place ≠ some t)
    (hshort : root.walk there [n] ≠ .error .nameTooLong) (f : File) :
    es.lookup n = none ∧
      (root.insert (.file f) (there ++ [n])).walk there [n] = .ok (there ++ [n]) := by
  have hstay : ¬(n = "" ∨ n = ".") := by
    intro hstay
    have hthere : root.walk there [n] = .ok there := FileTree.walk_of_step hdir (.stay hstay)
    exact hmissing there _ hthere hdir
  have hfits : FileTree.tooLong n = false := by
    rw [← Bool.not_eq_true]
    intro hlong
    rw [FileTree.walk, hdir] at hshort
    simp only [Bool.or_eq_true, decide_eq_true_eq, if_neg hstay, if_neg hup, if_pos hlong] at hshort
    exact hshort rfl
  have hgone : (root.find? (there ++ [n])).isSome = false := by
    rw [← Bool.not_eq_true]
    intro hentry
    have hdown : root.walk there [n] = .ok (there ++ [n]) :=
      FileTree.walk_of_step hdir (.down hstay hup hfits hentry)
    obtain ⟨s, hs⟩ := Option.isSome_iff_exists.mp hentry
    exact hmissing _ s hdown hs
  have hroot := FileTree.find?_insert_self root (.file f) (there ++ [n])
  obtain ⟨es', hes', -⟩ := FileTree.dir_of_find?_snoc hroot
  rw [FileTree.isSome_find?_snoc hdir n] at hgone
  refine ⟨by simpa using hgone, ?_⟩
  exact FileTree.walk_of_step hes' (.down hstay hup hfits (by rw [hroot]; rfl))

/-- A path that leads to nothing is short enough, and its walk ends nowhere. -/
theorem locate_eq_missing (h : w.locate p = .error .missing) :
    Text.pathSize p.toString ≤ maxPathBytes ∧
      (∀ place t, w.root.walk (w.startOf p) p.names = .ok place → w.root.find? place ≠ some t) ∧
      w.root.walk (w.startOf p) p.names ≠ .error .nameTooLong := by
  by_cases hlong : Text.pathSize p.toString > maxPathBytes
  · rw [locate, if_pos hlong] at h
    cases h
  · have hshort := Nat.not_lt.mp hlong
    refine ⟨hshort, ?_, ?_⟩
    · intro place t hwalk hfind
      rw [locate_eq_ok_iff.mpr ⟨hshort, hwalk, hfind⟩] at h
      cases h
    · intro hwalk
      rw [locate, if_neg hlong, reach, ← startOf, hwalk] at h
      cases h

/-! ### Writing -/

/-- What a file is written over is a file. -/
theorem writeFile_over {place : List String} {f : File} (bytes : List UInt8)
    (hloc : w.locate p = .ok (place, .file f)) :
    let w' := { w with root := w.root.insert (.file ⟨bytes⟩) place }
    SameBut place w w' ∧ w'.locate p = .ok (place, .file ⟨bytes⟩) := by
  obtain ⟨hshort, hwalk, hfind⟩ := locate_eq_ok_iff.mp hloc
  have hfree := FileTree.free_of_file hfind
  have hplace : w.root.lies place ≠ some none := by
    rw [FileTree.lies, hfind]
    simp [FileTree.outside]
  refine ⟨sameBut_insert hfree _, locate_eq_ok_iff.mpr ⟨hshort, ?_, ?_⟩⟩
  · exact walk_insert hfree _ hplace hwalk
  · exact FileTree.find?_insert_self _ _ _

/-- A file that is not there yet is made in its directory. -/
theorem writeFile_anew {there : List String} {es : List (String × FileTree)} (bytes : List UInt8)
    (hloc : w.locate p = .error .missing) (hparent : w.locate p.parent = .ok (there, .dir es))
    (hup : p.name ≠ Path.up) :
    let place := there ++ [p.name]
    let w' := { w with root := w.root.insert (.file ⟨bytes⟩) place }
    SameBut place w w' ∧ w'.locate p = .ok (place, .file ⟨bytes⟩) := by
  obtain ⟨hshort, hmissing, hfits⟩ := locate_eq_missing hloc
  obtain ⟨-, hfront, hdir⟩ := locate_eq_ok_iff.mp hparent
  rcases List.eq_nil_or_concat p.names with hnil | ⟨front, n, hnames⟩
  · -- A path without names is its own directory.
    have hself : p.parent = p := by
      rw [Path.parent, hnil, List.dropLast_nil, ← hnil]
    rw [hself, hloc] at hparent
    cases hparent
  · rw [List.concat_eq_append] at hnames
    have hname : p.name = n := by
      rw [Path.name, hnames]
      simp
    have hfront : w.root.walk (w.startOf p) front = .ok there := by
      have hparentNames : p.parent.names = front := by
        rw [Path.parent, hnames, List.dropLast_concat]
      rw [← hparentNames]
      exact hfront
    have hstep : ∀ root : FileTree, root.walk (w.startOf p) front = .ok there →
        root.walk (w.startOf p) p.names = root.walk there [n] := by
      intro root hroot
      rw [hnames, FileTree.walk_append, hroot]
      rfl
    rw [hstep _ hfront] at hmissing hfits
    rw [hname] at hup ⊢
    obtain ⟨hentry, hlast⟩ := step_of_missing hdir hup hmissing hfits ⟨bytes⟩
    have hfree := FileTree.free_of_missing hdir hentry
    have hplace : w.root.lies (there ++ [n]) ≠ some none := by
      rw [FileTree.lies, FileTree.find?_append, hdir]
      simp [FileTree.find?, FileTree.entries, hentry]
    refine ⟨sameBut_insert hfree _, locate_eq_ok_iff.mpr ⟨hshort, ?_, ?_⟩⟩
    · show (w.root.insert _ _).walk (w.startOf p) p.names = _
      rw [hstep _ (walk_insert hfree _ hplace hfront)]
      exact hlast
    · exact FileTree.find?_insert_self _ _ _

/-- **A file that was written is there, and nothing else has changed.** -/
theorem writeFile_eq_ok {bytes : List UInt8} (h : w.writeFile p bytes = .ok w') :
    ∃ place, SameBut place w w' ∧ w'.locate p = .ok (place, .file ⟨bytes⟩) ∧
      w'.openFile p = .ok ⟨bytes⟩ := by
  have hopen : pathFault? p.toString = none → ∀ {place : List String},
      w'.locate p = .ok (place, .file ⟨bytes⟩) → w'.openFile p = .ok ⟨bytes⟩ := by
    intro hfault place hloc
    rw [openFile, hfault, hloc]
  unfold writeFile at h
  split at h
  · cases h
  · cases h
  · rename_i place f hfault hloc
    obtain rfl := Except.ok.inj h
    obtain ⟨hsame, hthere⟩ := writeFile_over bytes hloc
    exact ⟨place, hsame, hthere, hopen hfault hthere⟩
  · rename_i hfault hloc
    split at h
    · rename_i there es hparent
      split_ifs at h with hup
      obtain rfl := Except.ok.inj h
      obtain ⟨hsame, hthere⟩ := writeFile_anew bytes hloc hparent hup
      exact ⟨_, hsame, hthere, hopen hfault hthere⟩
    · cases h
    · cases h
  · cases h

/-- What a file can be written over or put at is no directory, however its path is spelled. -/
theorem not_dir_of_writeFile {s : String} {bytes : List UInt8}
    (h : w.writeFile (Path.ofString s) bytes = .ok w') :
    pathFault? s = none ∧ ∀ place t, w.locateText s = .ok (place, t) → t.isDir = false := by
  obtain ⟨hfault, hshort, hnot⟩ : pathFault? (Path.ofString s).toString = none ∧
      Text.pathSize (Path.ofString s).toString ≤ maxPathBytes ∧
      ∀ place es, w.locate (Path.ofString s) ≠ .ok (place, .dir es) := by
    unfold writeFile at h
    split at h
    · cases h
    · cases h
    · rename_i place f hfault hloc
      refine ⟨hfault, (locate_eq_ok_iff.mp hloc).1, ?_⟩
      intro place' es hdir
      rw [hloc] at hdir
      cases hdir
    · rename_i hfault hloc
      refine ⟨hfault, (locate_eq_missing hloc).1, ?_⟩
      intro place' es hdir
      rw [hloc] at hdir
      cases hdir
    · cases h
  refine ⟨pathFault?_eq_none_iff.mpr (Path.spellable_of_ofString
    (pathFault?_eq_none_iff.mp hfault)), ?_⟩
  intro place t hloc
  obtain ⟨-, hnames⟩ := locateText_eq_ok_iff.mp hloc
  have hsame := locate_eq_ok_iff.mpr
    ⟨hshort, FileTree.walk_filter_isName hnames.walked, hnames.found⟩
  cases t with
  | file f => rfl
  | dir es => exact absurd hsame (hnot _ es)

/-- Whether a file can be written, and why not, does not depend on what is written. -/
theorem writeFile_eq_error_iff {bytes : List UInt8} (other : List UInt8) {e : Failure} :
    w.writeFile p bytes = .error e ↔ w.writeFile p other = .error e := by
  unfold writeFile
  split
  · rfl
  · rfl
  · simp
  · split
    · split_ifs <;> simp
    · rfl
    · rfl
  · rfl

end Workspace

end LintHost
