/-
Where the names of a path lead.

A walk goes from place to place and looks at every directory on its way; what it does at each name
is a `Step`.  Removing double points works on names alone and looks at nothing.
`walk_eq_collapseOnto` says that they agree wherever the walk arrives: a tree without links has one
way up from every place, and that is the last name of the way down.  The other direction needs
something to be there: names that lead to something from the root are walked as they are,
`walk_of_clean`, as long as none of them is too long to be looked up.

A tree of files has no such names: `FileName` is what a file system asks of one, and `Proper`
says that a tree has no others; so names of files are walked wherever they lead, `walk_of_find?`.
-/
import LintHost.FileTree
import LintHost.Proofs.Outcome
import LintHost.Proofs.Workspace

namespace LintHost

/-- Can be the name of a file. -/
structure FileName (n : String) : Prop where
  isName : Path.IsName n
  notUp : n ≠ Path.up
  notTooLong : FileTree.tooLong n = false
  spellable : Spellable n

instance (n : String) : Decidable (FileName n) :=
  decidable_of_iff (Path.IsName n ∧ n ≠ Path.up ∧ FileTree.tooLong n = false ∧ Spellable n)
    ⟨fun h => ⟨h.1, h.2.1, h.2.2.1, h.2.2.2⟩,
      fun h => ⟨h.isName, h.notUp, h.notTooLong, h.spellable⟩⟩

namespace FileTree

/-! ### Trees with names of files -/

mutual

/-- Every name in the tree is the name of a file. -/
def Proper : FileTree → Prop
  | .file _ => True
  | .dir es => ProperEntries es

def ProperEntries : List (String × FileTree) → Prop
  | [] => True
  | (n, t) :: rest => FileName n ∧ Proper t ∧ ProperEntries rest

end

theorem ProperEntries.of_lookup {es : List (String × FileTree)} {n : String} {t : FileTree}
    (h : ProperEntries es) (ht : es.lookup n = some t) : FileName n ∧ Proper t := by
  induction es with
  | nil => cases ht
  | cons e rest ih =>
    obtain ⟨m, s⟩ := e
    obtain ⟨hm, hs, hrest⟩ := h
    by_cases hn : n = m
    · subst hn
      rw [List.lookup_cons_self] at ht
      rw [← Option.some.inj ht]
      exact ⟨hm, hs⟩
    · have hne : (n == m) = false := beq_eq_false_iff_ne.mpr hn
      rw [List.lookup_cons, hne] at ht
      exact ih hrest ht

/-- Names that lead to something are names of files. -/
theorem Proper.of_find? {root t : FileTree} {names : List String} (h : root.Proper)
    (ht : root.find? names = some t) : ∀ n ∈ names, FileName n := by
  induction names generalizing root with
  | nil =>
    intro n hn
    cases hn
  | cons m rest ih =>
    cases root with
    | file f => cases ht
    | dir es =>
      rw [find?, entries] at ht
      cases hl : es.lookup m with
      | none =>
        rw [hl] at ht
        cases ht
      | some s =>
        rw [hl] at ht
        obtain ⟨hm, hs⟩ := ProperEntries.of_lookup h hl
        intro n hn
        rcases List.mem_cons.mp hn with rfl | hn
        · exact hm
        · exact ih hs ht n hn

/-- What lies in a proper tree is proper. -/
theorem Proper.find? {root t : FileTree} {names : List String} (h : root.Proper)
    (ht : root.find? names = some t) : t.Proper := by
  induction names generalizing root with
  | nil =>
    rw [← Option.some.inj ht]
    exact h
  | cons m rest ih =>
    cases root with
    | file f => cases ht
    | dir es =>
      rw [FileTree.find?, entries] at ht
      cases hl : es.lookup m with
      | none =>
        rw [hl] at ht
        cases ht
      | some s =>
        rw [hl] at ht
        exact ih (ProperEntries.of_lookup h hl).2 ht

mutual

/-- What a walk below a directory meets has names of files. -/
theorem Proper.of_mem_contents {t : FileTree} (h : t.Proper) {names : List String}
    (hmem : names ∈ t.contents) : ∀ n ∈ names, FileName n := by
  match t with
  | .file f => cases hmem
  | .dir es =>
    rw [contents] at hmem
    rcases List.mem_append.mp hmem with hhere | hbelow
    · obtain ⟨⟨m, s⟩, he, rfl⟩ := List.mem_map.mp hhere
      intro n hn
      rw [List.mem_singleton.mp hn]
      exact ProperEntries.of_mem h he
    · exact ProperEntries.of_mem_contentsOf h hbelow

theorem ProperEntries.of_mem_contentsOf {es : List (String × FileTree)} (h : ProperEntries es)
    {names : List String} (hmem : names ∈ contentsOf es) : ∀ n ∈ names, FileName n := by
  match es with
  | [] => cases hmem
  | (m, s) :: rest =>
    obtain ⟨hm, hs, hrest⟩ := h
    rw [contentsOf] at hmem
    rcases List.mem_append.mp hmem with hfirst | hothers
    · obtain ⟨below, hbelow, rfl⟩ := List.mem_map.mp hfirst
      intro n hn
      rcases List.mem_cons.mp hn with rfl | hn
      · exact hm
      · exact Proper.of_mem_contents hs hbelow n hn
    · exact ProperEntries.of_mem_contentsOf hrest hothers

theorem ProperEntries.of_mem {es : List (String × FileTree)} (h : ProperEntries es)
    {n : String} {t : FileTree} (hmem : (n, t) ∈ es) : FileName n := by
  match es with
  | [] => cases hmem
  | (m, s) :: rest =>
    obtain ⟨hm, -, hrest⟩ := h
    rcases List.mem_cons.mp hmem with hsame | hmem
    · rw [(Prod.mk.inj hsame).1]
      exact hm
    · exact ProperEntries.of_mem hrest hmem

end

/-! ### Walking -/

variable {root : FileTree}

/-- What has something below it is a directory, and the root of a directory is one. -/
theorem dropLast_of_find? {here : List String} {es : List (String × FileTree)}
    (h : root.find? here = some (.dir es)) : ∃ es', root.find? here.dropLast = some (.dir es') := by
  rcases List.eq_nil_or_concat here with rfl | ⟨front, last, rfl⟩
  · exact ⟨es, h⟩
  · rw [List.concat_eq_append] at h ⊢
    obtain ⟨es', hdir, -⟩ := dir_of_find?_snoc h
    rw [List.dropLast_concat]
    exact ⟨es', hdir⟩

theorem isSome_find?_snoc {here : List String} {es : List (String × FileTree)}
    (h : root.find? here = some (.dir es)) (n : String) :
    (root.find? (here ++ [n])).isSome = (es.lookup n).isSome := by
  rw [find?_append, h]
  show ((FileTree.dir es).find? [n]).isSome = _
  rw [find?, entries]
  cases es.lookup n <;> rfl

/-- One step of a walk from a directory: it stays there, goes up, or goes down to something. -/
inductive Step (root : FileTree) (here : List String) (n : String) : List String → Prop
  | stay (h : n = "" ∨ n = ".") : Step root here n here
  | up (h : n = Path.up) : Step root here n here.dropLast
  | down (hstay : ¬(n = "" ∨ n = ".")) (hup : n ≠ Path.up) (hshort : tooLong n = false)
      (hentry : (root.find? (here ++ [n])).isSome) : Step root here n (here ++ [n])

/-- A walk that arrives takes a step from a directory first. -/
theorem step_of_walk {here there rest : List String} {n : String}
    (h : root.walk here (n :: rest) = .ok there) :
    ∃ es next, root.find? here = some (.dir es) ∧ Step root here n next ∧
      root.walk next rest = .ok there := by
  rw [walk] at h
  cases hhere : root.find? here with
  | none =>
    rw [hhere] at h
    cases h
  | some t =>
    rw [hhere] at h
    cases t with
    | file f => cases h
    | dir es =>
      simp only [Bool.or_eq_true, decide_eq_true_eq] at h
      by_cases hstay : n = "" ∨ n = "."
      · rw [if_pos hstay] at h
        exact ⟨es, here, rfl, .stay hstay, h⟩
      · rw [if_neg hstay] at h
        by_cases hup : n = Path.up
        · rw [if_pos hup] at h
          exact ⟨es, here.dropLast, rfl, .up hup, h⟩
        · rw [if_neg hup] at h
          by_cases hlong : tooLong n = true
          · rw [if_pos hlong] at h
            cases h
          · rw [if_neg hlong] at h
            by_cases hentry : (es.lookup n).isSome = true
            · rw [if_pos hentry] at h
              have hthere : (root.find? (here ++ [n])).isSome = true := by
                rw [isSome_find?_snoc hhere n, hentry]
              exact ⟨es, here ++ [n], rfl, .down hstay hup (by simpa using hlong) hthere, h⟩
            · rw [if_neg hentry] at h
              cases h

/-- A walk goes on from where its first step leads. -/
theorem walk_of_step {here next rest : List String} {n : String} {es : List (String × FileTree)}
    (hdir : root.find? here = some (.dir es)) (h : Step root here n next) :
    root.walk here (n :: rest) = root.walk next rest := by
  rw [walk, hdir]
  simp only [Bool.or_eq_true, decide_eq_true_eq]
  cases h with
  | stay hstay => rw [if_pos hstay]
  | up hup =>
    have hstay : ¬(n = "" ∨ n = ".") := by
      rw [hup]
      decide
    rw [if_neg hstay, if_pos hup]
  | down hstay hup hshort hentry =>
    rw [isSome_find?_snoc hdir n] at hentry
    rw [if_neg hstay, if_neg hup, if_neg (by simp [hshort]), if_pos hentry]

/-- Parts of a text that are no names do not lead anywhere. -/
theorem walk_filter_isName {root : FileTree} {here there : List String} {parts : List (List Char)}
    (h : root.walk here (parts.map String.ofList) = .ok there) :
    root.walk here ((parts.filter Path.isName).map String.ofList) = .ok there := by
  induction parts generalizing here with
  | nil => exact h
  | cons part rest ih =>
    rw [List.map_cons] at h
    obtain ⟨es, next, hdir, hstep, hwalk⟩ := step_of_walk h
    by_cases hname : Path.isName part = true
    · rw [List.filter_cons_of_pos hname, List.map_cons, walk_of_step hdir hstep]
      exact ih hwalk
    · have hparts : part = [] ∨ part = ['.'] := by
        simpa [Path.isName, Classical.or_iff_not_imp_left] using hname
      have hpoint : String.ofList part = "" ∨ String.ofList part = "." := by
        rcases hparts with rfl | rfl
        · exact .inl rfl
        · exact .inr rfl
      rw [List.filter_cons_of_neg hname]
      cases hstep with
      | stay _ => exact ih hwalk
      | up hup =>
        rw [hup] at hpoint
        exact absurd hpoint (by decide)
      | down hstay _ _ _ => exact absurd hpoint hstay

/-- A step down to nothing ends a walk. -/
theorem walk_of_gone {here rest : List String} {n : String} {es : List (String × FileTree)}
    (hdir : root.find? here = some (.dir es)) (hstay : ¬(n = "" ∨ n = ".")) (hup : n ≠ Path.up)
    (hshort : tooLong n = false) (hgone : root.find? (here ++ [n]) = none) :
    root.walk here (n :: rest) = .error .missing := by
  have hentry := isSome_find?_snoc hdir n
  rw [hgone, Option.isSome_none] at hentry
  rw [walk, hdir]
  simp only [Bool.or_eq_true, decide_eq_true_eq]
  rw [if_neg hstay, if_neg hup, if_neg (by simp [hshort]), if_neg (by simp [← hentry])]

/-- A step by a name goes up or down. -/
theorem Step.of_isName {here next : List String} {n : String} (hn : Path.IsName n)
    (h : Step root here n next) :
    (n = Path.up ∧ next = here.dropLast) ∨ (n ≠ Path.up ∧ next = here ++ [n]) := by
  cases h with
  | stay hstay =>
    rcases hstay with hempty | hpoint
    · exact absurd hempty hn.ne_empty
    · exact absurd hpoint hn.ne_point
  | up hup => exact .inl ⟨hup, rfl⟩
  | down _ hup _ _ => exact .inr ⟨hup, rfl⟩

/-- **A walk arrives where the names lead by themselves.** -/
theorem walk_eq_collapseOnto {here there names : List String} (hn : ∀ n ∈ names, Path.IsName n)
    (h : root.walk here names = .ok there) : there = Path.collapseOnto here.reverse names := by
  induction names generalizing here with
  | nil =>
    rw [walk] at h
    rw [Path.collapseOnto, List.reverse_reverse, Except.ok.inj h]
  | cons n rest ih =>
    have hrest : ∀ m ∈ rest, Path.IsName m := fun m hm => hn m (by simp [hm])
    obtain ⟨es, next, -, hstep, hwalk⟩ := step_of_walk h
    rw [Path.collapseOnto, ih hrest hwalk]
    rcases hstep.of_isName (hn n (by simp)) with ⟨hup, rfl⟩ | ⟨hup, rfl⟩
    · rw [if_pos hup, List.drop_one, List.tail_reverse]
    · rw [if_neg hup, List.reverse_append]
      rfl

theorem walk_append {here a b : List String} :
    root.walk here (a ++ b) = root.walk here a >>= fun there => root.walk there b := by
  induction a generalizing here with
  | nil =>
    rw [walk]
    rfl
  | cons n rest ih =>
    rw [List.cons_append, walk, walk]
    cases root.find? here with
    | none => rfl
    | some t =>
      cases t with
      | file f => rfl
      | dir es =>
        simp only [ih]
        split_ifs <;> rfl

/-- **A walk that ends at a file ends with the name of the file.** -/
theorem exists_snoc_of_walk {here there names : List String} {f : File}
    {es : List (String × FileTree)}
    (hn : ∀ n ∈ names, Path.IsName n) (hhere : root.find? here = some (.dir es))
    (h : root.walk here names = .ok there) (hfile : root.find? there = some (.file f)) :
    ∃ front n, names = front ++ [n] ∧ n ≠ Path.up := by
  rcases List.eq_nil_or_concat names with rfl | ⟨front, n, hconcat⟩
  · rw [walk] at h
    rw [← Except.ok.inj h, hhere] at hfile
    cases hfile
  · rw [List.concat_eq_append] at hconcat
    subst hconcat
    refine ⟨front, n, rfl, ?_⟩
    rw [walk_append] at h
    obtain ⟨mid, -, hlast⟩ := Outcome.bind_eq_ok_iff.mp h
    obtain ⟨es', next, hdir, hstep, hend⟩ := step_of_walk hlast
    rw [walk] at hend
    rcases hstep.of_isName (hn n (by simp)) with ⟨-, rfl⟩ | ⟨hup, -⟩
    · -- A double point leads to a directory.
      obtain ⟨es'', habove⟩ := dropLast_of_find? hdir
      rw [← Except.ok.inj hend, habove] at hfile
      cases hfile
    · exact hup

/-- A walk that arrives has no name on its way that is too long. -/
theorem not_tooLong_of_walk {here there names : List String}
    (h : root.walk here names = .ok there) : ∀ n ∈ names, tooLong n = false := by
  induction names generalizing here with
  | nil => exact List.forall_mem_nil _
  | cons n rest ih =>
    obtain ⟨es, next, -, hstep, hwalk⟩ := step_of_walk h
    refine List.forall_mem_cons.mpr ⟨?_, ih hwalk⟩
    cases hstep with
    | stay hstay => rcases hstay with rfl | rfl <;> decide
    | up hup =>
      rw [hup]
      decide
    | down _ _ hshort _ => exact hshort

/-- **Names without double points that lead to something are walked as they are.** -/
theorem walk_of_clean {t : FileTree} {here names : List String}
    (hn : ∀ n ∈ names, Path.IsName n) (hclean : Path.up ∉ names)
    (hshort : ∀ n ∈ names, tooLong n = false) (h : root.find? (here ++ names) = some t) :
    root.walk here names = .ok (here ++ names) := by
  induction names generalizing here with
  | nil =>
    rw [walk, List.append_nil]
  | cons n rest ih =>
    have hsplit : here ++ n :: rest = here ++ [n] ++ rest := by simp
    rw [hsplit] at h ⊢
    have hfirst := h
    rw [find?_append] at hfirst
    obtain ⟨s, hs, -⟩ := Option.bind_eq_some_iff.mp hfirst
    obtain ⟨es, hdir, -⟩ := dir_of_find?_snoc hs
    obtain ⟨hname, hnames⟩ := List.forall_mem_cons.mp hn
    obtain ⟨hup, hrest⟩ := not_or.mp fun hmem => hclean (List.mem_cons.mpr hmem)
    obtain ⟨hlong, hlongs⟩ := List.forall_mem_cons.mp hshort
    have hstay : ¬(n = "" ∨ n = ".") := not_or.mpr ⟨hname.ne_empty, hname.ne_point⟩
    have hstep : Step root here n (here ++ [n]) :=
      .down hstay (Ne.symm hup) hlong (by rw [hs]; rfl)
    rw [walk_of_step hdir hstep]
    exact ih hnames hrest hlongs h

/-- Names of files that lead to something are walked as they are. -/
theorem walk_of_find? {t : FileTree} {here names : List String} (hn : ∀ n ∈ names, FileName n)
    (h : root.find? (here ++ names) = some t) : root.walk here names = .ok (here ++ names) :=
  walk_of_clean (fun n hmem => (hn n hmem).isName) (fun hmem => (hn _ hmem).notUp rfl)
    (fun n hmem => (hn n hmem).notTooLong) h

end FileTree

end LintHost
