/-
What a command line asks for.

The settings of a run have a part for every option, and taking the values of an option into them
sets its own part and leaves the others alone.  So what an option comes to, `asks`, does not depend
on the options taken before it, and the options of a command line can be looked at one by one:
`request_eq_run_iff` says which settings a command line comes to.  Their order decides only which of
several faults is told.

The rest of the module reads the parts: of an option that is given more than once the last value
counts, and of the analyzers every one, in order.
-/
import LintHost.Command.Settings
import LintHost.Proofs.Outcome

namespace LintHost.Command

open LintHost.Outcome

/-- The part of the settings that belongs to an option. -/
def Settings.only (s : Settings) : Opt → Settings
  | .analyzers => { analyzers := s.analyzers }
  | .target => { target := s.target }
  | .format => { format := s.format }
  | .verbose => { verbose := s.verbose }
  | .quiet => { quiet := s.quiet }
  | .output => { output := s.output }
  | .jobs => { jobs := s.jobs }
  | .config => { config := s.config }
  | .version | .help => {}

/-- What an option comes to by itself. -/
def asks (w : Workspace) (given : List Given) (o : Opt) : Except Refusal Settings :=
  take w o (valuesOf o given) {}

variable {w : Workspace} {o : Opt} {s s' : Settings} {values : List String} {given : List Given}

/-- Settings with the same parts are the same. -/
theorem Settings.eq_of_only (h : ∀ o, s.only o = s'.only o) : s = s' := by
  have hanalyzers : s.analyzers = s'.analyzers := (Settings.mk.inj (h .analyzers)).1
  have htarget : s.target = s'.target := (Settings.mk.inj (h .target)).2.1
  have hformat : s.format = s'.format := (Settings.mk.inj (h .format)).2.2.1
  have hverbose : s.verbose = s'.verbose := (Settings.mk.inj (h .verbose)).2.2.2.1
  have hquiet : s.quiet = s'.quiet := (Settings.mk.inj (h .quiet)).2.2.2.2.1
  have houtput : s.output = s'.output := (Settings.mk.inj (h .output)).2.2.2.2.2.1
  have hjobs : s.jobs = s'.jobs := (Settings.mk.inj (h .jobs)).2.2.2.2.2.2.1
  have hconfig : s.config = s'.config := (Settings.mk.inj (h .config)).2.2.2.2.2.2.2
  cases s
  cases s'
  simp_all

/-! ### One option -/

/-- Setting the part of one option, which leaves the parts of all others. -/
theorem only_of_ne {o' : Opt} (h : take w o values s = .ok s') (hne : o' ≠ o) :
    s'.only o' = s.only o' := by
  unfold take at h
  cases o with
  | analyzers =>
    obtain ⟨paths, -, hs⟩ := bind_eq_ok_iff.mp h
    rw [← Except.ok.inj hs]
    cases o' <;> first | rfl | exact absurd rfl hne
  | verbose | quiet =>
    rw [← Except.ok.inj h]
    cases o' <;> first | rfl | exact absurd rfl hne
  | version | help => rw [Except.ok.inj h]
  | target =>
    simp only at h
    split_ifs at h
    obtain ⟨path, -, hs⟩ := bind_eq_ok_iff.mp h
    rw [← Except.ok.inj hs]
    cases o' <;> first | rfl | exact absurd rfl hne
  | format | output | jobs | config =>
    simp only at h
    split_ifs at h
    · rw [Except.ok.inj h]
    · obtain ⟨value, -, hs⟩ := bind_eq_ok_iff.mp h
      rw [← Except.ok.inj hs]
      cases o' <;> first | rfl | exact absurd rfl hne

/-- What is set does not depend on what was set before. -/
theorem take_only (h : take w o values s = .ok s') (hfresh : s.only o = {}) :
    take w o values {} = .ok (s'.only o) := by
  unfold take at h ⊢
  cases o with
  | analyzers =>
    obtain ⟨paths, hpaths, hs⟩ := bind_eq_ok_iff.mp h
    rw [← Except.ok.inj hs]
    exact bind_eq_ok_iff.mpr ⟨paths, hpaths, rfl⟩
  | verbose | quiet =>
    rw [← Except.ok.inj h]
    rfl
  | version | help => rfl
  | target =>
    simp only at h ⊢
    split_ifs at h ⊢
    obtain ⟨path, hpath, hs⟩ := bind_eq_ok_iff.mp h
    rw [← Except.ok.inj hs]
    exact bind_eq_ok_iff.mpr ⟨path, hpath, rfl⟩
  | format | output | jobs | config =>
    simp only at h ⊢
    split_ifs at h ⊢
    · rw [← Except.ok.inj h, hfresh]
    · obtain ⟨value, hvalue, hs⟩ := bind_eq_ok_iff.mp h
      rw [← Except.ok.inj hs]
      exact bind_eq_ok_iff.mpr ⟨value, hvalue, rfl⟩

/-- Nor does a refusal. -/
theorem take_eq_error_iff {r : Refusal} :
    take w o values s = .error r ↔ take w o values {} = .error r := by
  unfold take
  cases o with
  | analyzers =>
    simp only [bind_eq_error_iff]
    simp
  | verbose | quiet | version | help => simp
  | target =>
    simp only
    split_ifs
    · rfl
    · simp only [bind_eq_error_iff]
      simp
  | format | output | jobs | config =>
    simp only
    split_ifs
    · simp
    · simp only [bind_eq_error_iff]
      simp

/-! ### The options in turn -/

/-- Options taken in turn set their parts to what each comes to by itself. -/
theorem foldlM_take_eq_ok_iff {os : List Opt} (hnodup : os.Nodup)
    (hfresh : ∀ o ∈ os, s.only o = {}) :
    os.foldlM (fun s o => take w o (valuesOf o given) s) s = .ok s' ↔
      (∀ o ∈ os, asks w given o = .ok (s'.only o)) ∧ ∀ o ∉ os, s'.only o = s.only o := by
  induction os generalizing s with
  | nil =>
    rw [List.foldlM_nil]
    constructor
    · intro h
      rw [Except.ok.inj h]
      simp
    · intro h
      rw [Settings.eq_of_only fun o => h.2 o List.not_mem_nil]
      rfl
  | cons o os ih =>
    obtain ⟨hnot, hrest⟩ := List.nodup_cons.mp hnodup
    have hkept : ∀ {s₁}, take w o (valuesOf o given) s = .ok s₁ → ∀ o' ∈ os, s₁.only o' = {} := by
      intro s₁ htake o' ho'
      rw [only_of_ne htake (fun hsame => hnot (hsame ▸ ho'))]
      exact hfresh o' (List.mem_cons_of_mem _ ho')
    rw [List.foldlM_cons, bind_eq_ok_iff]
    constructor
    · rintro ⟨s₁, htake, hfold⟩
      obtain ⟨hasks, hothers⟩ := (ih hrest (hkept htake)).mp hfold
      refine ⟨?_, ?_⟩
      · intro o' ho'
        rcases List.mem_cons.mp ho' with rfl | ho'
        · rw [hothers o' hnot]
          exact take_only htake (hfresh o' List.mem_cons_self)
        · exact hasks o' ho'
      · intro o' ho'
        obtain ⟨hne, ho'⟩ := not_or.mp (List.mem_cons.not.mp ho')
        rw [hothers o' ho', only_of_ne htake hne]
    · rintro ⟨hasks, hothers⟩
      have hhead := hasks o List.mem_cons_self
      cases htake : take w o (valuesOf o given) s with
      | error r =>
        rw [asks, take_eq_error_iff.mp htake] at hhead
        cases hhead
      | ok s₁ =>
        refine ⟨s₁, rfl, (ih hrest (hkept htake)).mpr ⟨?_, ?_⟩⟩
        · exact fun o' ho' => hasks o' (List.mem_cons_of_mem _ ho')
        · intro o' ho'
          by_cases hsame : o' = o
          · subst hsame
            have hthere := take_only htake (hfresh o' List.mem_cons_self)
            rw [asks, hthere] at hhead
            exact (Except.ok.inj hhead).symm
          · rw [hothers o' (by simp [hsame, ho']), only_of_ne htake hsame]

/-- The first of them that is refused is what is told. -/
theorem foldlM_take_eq_error_iff {os : List Opt} {r : Refusal} :
    os.foldlM (fun s o => take w o (valuesOf o given) s) s = .error r ↔
      os.mapM (asks w given) = .error r := by
  induction os generalizing s with
  | nil => simp [pure, Except.pure]
  | cons o os ih =>
    rw [List.foldlM_cons, bind_eq_error_iff, mapM_cons_eq_error, take_eq_error_iff]
    refine or_congr Iff.rfl ?_
    simp only [ih]
    constructor
    · rintro ⟨s₁, htake, hrest⟩
      refine ⟨?_, hrest⟩
      cases hasks : asks w given o with
      | ok t => exact ⟨t, rfl⟩
      | error r' =>
        rw [take_eq_error_iff.mpr hasks] at htake
        cases htake
    · rintro ⟨⟨t, hasks⟩, hrest⟩
      cases htake : take w o (valuesOf o given) s with
      | ok s₁ => exact ⟨s₁, rfl, hrest⟩
      | error r' =>
        rw [asks, take_eq_error_iff.mp htake] at hasks
        cases hasks

/-! ### The order of the options -/

/-- The options of a list at their first places, behind others. -/
def firstPlaces (seen os : List Opt) : List Opt :=
  os.foldl (fun os o => if os.contains o then os else os ++ [o]) seen

theorem firstPlaces_cons (seen : List Opt) (o : Opt) (os : List Opt) :
    firstPlaces seen (o :: os) = firstPlaces (if seen.contains o then seen else seen ++ [o]) os :=
  rfl

theorem nodup_firstPlaces {seen : List Opt} (os : List Opt) (h : seen.Nodup) :
    (firstPlaces seen os).Nodup := by
  induction os generalizing seen with
  | nil => exact h
  | cons o os ih =>
    rw [firstPlaces_cons]
    by_cases ho : seen.contains o = true
    · rw [if_pos ho]
      exact ih h
    · rw [if_neg ho]
      refine ih (List.nodup_append.mpr ⟨h, by simp, ?_⟩)
      rintro o' ho' _ hlast rfl
      rw [List.mem_singleton.mp hlast] at ho'
      exact ho (by simpa using ho')

/-- The first places of some options do not depend on the others. -/
theorem filter_firstPlaces (keep : Opt → Bool) (seen os : List Opt) :
    (firstPlaces seen os).filter keep = firstPlaces (seen.filter keep) (os.filter keep) := by
  induction os generalizing seen with
  | nil => rfl
  | cons o os ih =>
    rw [firstPlaces_cons, ih]
    cases hkeep : keep o with
    | true =>
      have hsame : (seen.filter keep).contains o = seen.contains o := by
        rw [Bool.eq_iff_iff]
        simp [hkeep]
      rw [List.filter_cons_of_pos hkeep, firstPlaces_cons, hsame]
      by_cases ho : seen.contains o = true
      · rw [if_pos ho, if_pos ho]
      · rw [if_neg ho, if_neg ho, List.filter_append, List.filter_cons_of_pos hkeep,
          List.filter_nil]
    | false =>
      have hnot : ¬keep o = true := by simp [hkeep]
      rw [List.filter_cons_of_neg hnot]
      by_cases ho : seen.contains o = true
      · rw [if_pos ho]
      · rw [if_neg ho, List.filter_append, List.filter_cons_of_neg hnot, List.filter_nil,
          List.append_nil]

theorem checkOrder_eq (given : List Given) :
    checkOrder given =
      firstPlaces [] (given.map (·.option)) ++
        Opt.all.filter fun o => !(firstPlaces [] (given.map (·.option))).contains o := rfl

theorem filter_checkOrder (keep : Opt → Bool) (given : List Given) :
    (checkOrder given).filter keep =
      let first := firstPlaces [] ((given.map (·.option)).filter keep)
      first ++ (Opt.all.filter keep).filter fun o => !first.contains o := by
  simp only
  rw [checkOrder_eq, List.filter_append, filter_firstPlaces, List.filter_nil, List.filter_filter,
    List.filter_filter]
  congr 1
  refine List.filter_congr fun o _ => ?_
  cases hkeep : keep o with
  | false => simp
  | true =>
    have hsame : (firstPlaces [] ((given.map (·.option)).filter keep)).contains o =
        (firstPlaces [] (given.map (·.option))).contains o := by
      have hfilter := filter_firstPlaces keep [] (given.map (·.option))
      rw [List.filter_nil] at hfilter
      rw [← hfilter, Bool.eq_iff_iff]
      simp [hkeep]
    rw [hsame, Bool.true_and, Bool.and_true]

theorem mem_checkOrder (o : Opt) (given : List Given) : o ∈ checkOrder given := by
  rw [checkOrder_eq, List.mem_append, List.mem_filter]
  by_cases ho : o ∈ firstPlaces [] (given.map (·.option))
  · exact Or.inl ho
  · refine Or.inr ⟨?_, by simpa using ho⟩
    cases o <;> decide

theorem nodup_checkOrder (given : List Given) : (checkOrder given).Nodup := by
  rw [checkOrder_eq]
  refine List.nodup_append.mpr ⟨nodup_firstPlaces _ List.nodup_nil, ?_, ?_⟩
  · exact List.Pairwise.filter _ (by decide : Opt.all.Nodup)
  · rintro o ho _ hrest rfl
    simpa [ho] using (List.mem_filter.mp hrest).2

/-! ### The command line as a whole -/

/-- The settings that options come to, if there is nothing beside them. -/
def settingsOf (w : Workspace) (p : Parsed) : Except Refusal Settings := do
  let s ← (checkOrder p.given).foldlM (fun s o => take w o (valuesOf o p.given) s) {}
  if p.extra.isEmpty then .ok s else .error (.usage (.extra p.extra))

theorem foldlM_checkOrder_eq_ok_iff :
    (checkOrder given).foldlM (fun s o => take w o (valuesOf o given) s) {} = .ok s ↔
      ∀ o, asks w given o = .ok (s.only o) := by
  rw [foldlM_take_eq_ok_iff (nodup_checkOrder given) fun o _ => by cases o <;> rfl]
  simp [mem_checkOrder]

theorem settingsOf_eq_ok_iff {p : Parsed} :
    settingsOf w p = .ok s ↔ p.extra = [] ∧ ∀ o, asks w p.given o = .ok (s.only o) := by
  rw [settingsOf, bind_eq_ok_iff]
  constructor
  · rintro ⟨t, ht, hextra⟩
    split_ifs at hextra with hempty
    rw [← Except.ok.inj hextra]
    exact ⟨List.isEmpty_iff.mp hempty, foldlM_checkOrder_eq_ok_iff.mp ht⟩
  · rintro ⟨hextra, hasks⟩
    exact ⟨s, foldlM_checkOrder_eq_ok_iff.mpr hasks, by rw [hextra]; rfl⟩

/-- Extra arguments are told of last. -/
theorem settingsOf_eq_error_iff {p : Parsed} {r : Refusal} :
    settingsOf w p = .error r ↔
      (checkOrder p.given).mapM (asks w p.given) = .error r ∨
        (∀ o, ∃ t, asks w p.given o = .ok t) ∧ p.extra ≠ [] ∧ r = .usage (.extra p.extra) := by
  rw [settingsOf, bind_eq_error_iff, foldlM_take_eq_error_iff]
  refine or_congr Iff.rfl ?_
  constructor
  · rintro ⟨s, hs, hextra⟩
    split_ifs at hextra with hempty
    refine ⟨fun o => ⟨_, foldlM_checkOrder_eq_ok_iff.mp hs o⟩, ?_, (Except.error.inj hextra).symm⟩
    exact fun hnil => hempty (List.isEmpty_iff.mpr hnil)
  · rintro ⟨hasks, hextra, rfl⟩
    cases hfold : (checkOrder p.given).foldlM (fun s o => take w o (valuesOf o p.given) s) {} with
    | ok s => exact ⟨s, rfl, if_neg (List.isEmpty_iff.not.mpr hextra)⟩
    | error r =>
      obtain ⟨before, o, after, -, -, ho⟩ :=
        mapM_eq_error_iff.mp (foldlM_take_eq_error_iff.mp hfold)
      obtain ⟨t, ht⟩ := hasks o
      rw [ht] at ho
      cases ho

/-- A command line that can be taken apart informs, or comes to settings. -/
theorem request_of_parse {args : List String} {p : Parsed} (h : parse args = .ok p) :
    request w args =
      match p.given.find? fun g => g.option.isEager with
      | some g => .ok (if g.option = .help then .help else .version)
      | none => Request.run <$> settingsOf w p := by
  rw [request, h]
  show (match p.given.find? fun g => g.option.isEager with
    | some g => Except.ok (if g.option = Opt.help then Request.help else .version)
    | none => _) = _
  cases p.given.find? fun g => g.option.isEager with
  | some g => rfl
  | none =>
    rw [settingsOf]
    cases (checkOrder p.given).foldlM (fun s o => take w o (valuesOf o p.given) s) {} with
    | error r => rfl
    | ok s =>
      show (if _ then _ else _) = Request.run <$> (if _ then _ else _)
      split_ifs <;> rfl

/-- **What the settings of a run are**: each part is what its option comes to by itself. -/
theorem request_eq_run_iff {args : List String} :
    request w args = .ok (.run s) ↔
      ∃ p, parse args = .ok p ∧ (∀ g ∈ p.given, g.option.isEager = false) ∧ p.extra = [] ∧
        ∀ o, asks w p.given o = .ok (s.only o) := by
  have hcalm : ∀ given : List Given, (given.find? fun g => g.option.isEager) = none ↔
      ∀ g ∈ given, g.option.isEager = false := by
    intro given
    simp
  cases hparse : parse args with
  | error problem =>
    constructor
    · intro h
      rw [request, hparse] at h
      cases h
    · rintro ⟨p, hp, -⟩
      cases hp
  | ok p =>
    rw [request_of_parse hparse]
    cases hfind : p.given.find? fun g => g.option.isEager with
    | some g =>
      constructor
      · intro h
        have hinforms := Except.ok.inj h
        split_ifs at hinforms
      · rintro ⟨q, hq, hnone, -⟩
        rw [← Except.ok.inj hq, ← hcalm, hfind] at hnone
        cases hnone
    | none =>
      simp only [map_eq_ok_iff]
      constructor
      · rintro ⟨t, ht, hrun⟩
        rw [← Request.run.inj hrun] at ht
        exact ⟨p, rfl, (hcalm _).mp hfind, settingsOf_eq_ok_iff.mp ht⟩
      · rintro ⟨q, hq, -, hrest⟩
        rw [← Except.ok.inj hq] at hrest
        exact ⟨s, settingsOf_eq_ok_iff.mpr hrest, rfl⟩

/-! ### Reading the parts -/

/-- A path is taken as it was given. -/
theorem eq_of_checkPath {need : PathNeed} {path given : String}
    (h : checkPath w o need given = .ok path) : path = given := by
  unfold checkPath at h
  split at h
  · cases h
  · split_ifs at h
    · cases h
    · exact (Except.ok.inj h).symm
  · split_ifs at h
    · cases h
    · exact (Except.ok.inj h).symm

/-- Every analyzer counts. -/
theorem analyzers_of_asks (h : asks w given .analyzers = .ok (s.only .analyzers)) :
    s.analyzers = valuesOf .analyzers given := by
  obtain ⟨paths, hpaths, hs⟩ := bind_eq_ok_iff.mp h
  have hsame : paths = s.analyzers := (Settings.mk.inj (Except.ok.inj hs)).1
  have heach : List.Forall₂ (· = ·) paths (valuesOf .analyzers given) :=
    ((mapM_eq_ok_iff.mp hpaths).imp fun _ _ => eq_of_checkPath).flip
  rw [List.forall₂_eq_eq_eq] at heach
  rw [← hsame, heach]

theorem getLast?_of_isEmpty (h : ¬values.isEmpty = true) :
    values.getLast? = some (values.getLast?.getD "") := by
  cases hlast : values.getLast? with
  | none => exact absurd (List.isEmpty_iff.mpr (List.getLast?_eq_none_iff.mp hlast)) h
  | some v => rfl

theorem target_of_asks (h : asks w given .target = .ok (s.only .target)) :
    (valuesOf .target given).getLast? = some s.target := by
  unfold asks take at h
  simp only at h
  split_ifs at h with hempty
  obtain ⟨path, hpath, hs⟩ := bind_eq_ok_iff.mp h
  have hsame : path = s.target := (Settings.mk.inj (Except.ok.inj hs)).2.1
  rw [getLast?_of_isEmpty hempty, ← hsame, eq_of_checkPath hpath]

theorem output_of_asks (h : asks w given .output = .ok (s.only .output)) :
    s.output = (valuesOf .output given).getLast? := by
  unfold asks take at h
  simp only at h
  split_ifs at h with hempty
  · have hsame : none = s.output := (Settings.mk.inj (Except.ok.inj h)).2.2.2.2.2.1
    rw [← hsame, List.isEmpty_iff.mp hempty]
    rfl
  · obtain ⟨path, hpath, hs⟩ := bind_eq_ok_iff.mp h
    have hsame : some path = s.output := (Settings.mk.inj (Except.ok.inj hs)).2.2.2.2.2.1
    rw [getLast?_of_isEmpty hempty, ← hsame, eq_of_checkPath hpath]

theorem config_of_asks (h : asks w given .config = .ok (s.only .config)) :
    s.config = (valuesOf .config given).getLast? := by
  unfold asks take at h
  simp only at h
  split_ifs at h with hempty
  · have hsame : none = s.config := (Settings.mk.inj (Except.ok.inj h)).2.2.2.2.2.2.2
    rw [← hsame, List.isEmpty_iff.mp hempty]
    rfl
  · obtain ⟨path, hpath, hs⟩ := bind_eq_ok_iff.mp h
    have hsame : some path = s.config := (Settings.mk.inj (Except.ok.inj hs)).2.2.2.2.2.2.2
    rw [getLast?_of_isEmpty hempty, ← hsame, eq_of_checkPath hpath]

theorem verbose_of_asks (h : asks w given .verbose = .ok (s.only .verbose)) :
    s.verbose = !(valuesOf .verbose given).isEmpty :=
  (Settings.mk.inj (Except.ok.inj h)).2.2.2.1.symm

theorem quiet_of_asks (h : asks w given .quiet = .ok (s.only .quiet)) :
    s.quiet = !(valuesOf .quiet given).isEmpty :=
  (Settings.mk.inj (Except.ok.inj h)).2.2.2.2.1.symm

end LintHost.Command
