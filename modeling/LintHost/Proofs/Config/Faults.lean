/-
Files of configuration that hold none.

A file is `Breached` where its text breaks the notation, or where what it holds is no mapping.  The
user's file is then noted and passed over, and the configuration comes out as it does in a workspace
without that file; the project's file is then reported as a faulty configuration.

Not every fault is answered so.  A file whose reading fails with something else than a breach of the
notation, `Target.Upsets`, ends the loading with that failure, whichever file it is, and so does a
layer that goes too deep: the interpreter has not the room to lay it over what is below it.
`load_typed` tells exactly when a loading ends with a
configuration or with a report of a faulty one, and that these two are the only other ways out.
Bytes that are no text are the plainest case of a file that upsets, `load_of_no_text`.
-/
import LintHost.Proofs.Config.Layers
import LintHost.Proofs.Removing
import LintHost.Proofs.Target.Malformed

namespace LintHost.Config

open LintHost.Value LintHost.Outcome

variable {w w' : Workspace} {p : Path} {dir : String} {named : Option String}
  {base global project : Entries}

/-- The bytes of a file hold no layer. -/
inductive Breached (w : Workspace) (p : Path) : Prop
  /-- They break the notation. -/
  | malformed {file : File} (hopen : w.openFile p = .ok file)
      (hvalue : Yaml.valueOf w.interpreter.nestingRoom p.toString
        (Text.Portion.read file.bytes) = .error .malformed)
  /-- They hold something, and no mapping. -/
  | shape {file : File} {v : Value} (hopen : w.openFile p = .ok file)
      (hvalue : Yaml.valueOf w.interpreter.nestingRoom p.toString
        (Text.Portion.read file.bytes) = .ok v)
      (hnull : v.view ≠ .null) (hmap : ∀ es, v.view ≠ .map es)

/-- The entries that the user's file leaves: its own, or none where it is passed over. -/
inductive Leaves (w : Workspace) : Entries → Prop
  | brought {es : Entries} (h : Brings w (userFile w) es) : Leaves w es
  | passedOver (h : Breached w (userFile w)) : Leaves w []

/-- Is about a faulty configuration. -/
def IsConfigFault (e : Failure) : Prop := ∃ problem, e = .config problem

/-- What the user's file leaves, or a project's file brings, lies over mappings inside each other
for which there is not the room. -/
def GoesTooDeep (w : Workspace) (p : Path) : Prop :=
  ∃ global, Leaves w global ∧
    (Overruns w.interpreter.mergeRoom defaults global ∨
      ∃ project, Brings w p project ∧
        Overruns w.interpreter.mergeRoom (merge w.interpreter.mergeRoom defaults global) project)

/-! ### What reading a file comes to -/

theorem readLayer_of_value {file : File} {v : Value} (hopen : w.openFile p = .ok file)
    (hvalue : Yaml.valueOf w.interpreter.nestingRoom p.toString
      (Text.Portion.read file.bytes) = .ok v) :
    readLayer w p =
      match v.view with
      | .null => .ok []
      | .map entries => .ok entries
      | u => .error (.config (.notMapping p.toString u.kind)) := by
  rw [readLayer, Target.readYaml_of_openFile hopen, hvalue]
  rfl

theorem readLayer_of_error {file : File} {e : Yaml.Error} (hopen : w.openFile p = .ok file)
    (hvalue : Yaml.valueOf w.interpreter.nestingRoom p.toString
      (Text.Portion.read file.bytes) = .error e) :
    readLayer w p = .error (.yaml e) := by
  rw [readLayer, Target.readYaml_of_openFile hopen, hvalue]
  rfl

/-- A breached file fails to be read, in a way that both layers answer. -/
theorem readLayer_of_breached (h : Breached w p) :
    ∃ e, readLayer w p = .error e ∧ isBrokenLayer e = true ∧
      IsConfigFault (projectFailure p e) := by
  cases h with
  | malformed hopen hvalue => exact ⟨_, readLayer_of_error hopen hvalue, rfl, _, rfl⟩
  | shape hopen hvalue hnull hmap =>
    have hread := readLayer_of_value hopen hvalue
    split at hread
    · rename_i hview
      exact absurd hview hnull
    · rename_i es hview
      exact absurd hview (hmap es)
    · exact ⟨_, hread, rfl, _, rfl⟩

theorem isBrokenLayer_yaml {e : Yaml.Error} : isBrokenLayer (.yaml e) = false ↔ e ≠ .malformed := by
  cases e <;> simp [isBrokenLayer]

theorem readLayer_of_upsets (h : Target.Upsets w p) :
    ∃ e, readLayer w p = .error (.yaml e) ∧ e ≠ .malformed := by
  obtain ⟨file, e, hopen, hvalue, hne⟩ := h
  exact ⟨e, readLayer_of_error hopen hvalue, hne⟩

theorem Breached.isFile (h : Breached w p) : w.isFile p = .ok true := by
  cases h with
  | malformed hopen _ => exact Workspace.isFile_of_openFile hopen
  | shape hopen _ _ _ => exact Workspace.isFile_of_openFile hopen

theorem isFile_of_upsets (h : Target.Upsets w p) : w.isFile p = .ok true := by
  obtain ⟨file, e, hopen, -, -⟩ := h
  exact Workspace.isFile_of_openFile hopen

/-- A file that can be looked at brings entries, is breached, or upsets. -/
theorem layer_cases (h : w.Lookable p) :
    (∃ es, Brings w p es) ∨ Breached w p ∨ Target.Upsets w p := by
  obtain ⟨there, hfile⟩ := h
  cases there with
  | false => exact .inl ⟨[], .absent hfile⟩
  | true =>
    obtain ⟨file, hopen⟩ := Workspace.openFile_of_isFile hfile
    cases hvalue : Yaml.valueOf w.interpreter.nestingRoom p.toString
        (Text.Portion.read file.bytes) with
    | error e =>
      by_cases hmalformed : e = .malformed
      · rw [hmalformed] at hvalue
        exact .inr (.inl (.malformed hopen hvalue))
      · exact .inr (.inr ⟨file, e, hopen, hvalue, hmalformed⟩)
    | ok v =>
      have hread := readLayer_of_value hopen hvalue
      split at hread
      · exact .inl ⟨_, .file hfile hread⟩
      · exact .inl ⟨_, .file hfile hread⟩
      · rename_i hnull hmap
        exact .inr (.inl (.shape hopen hvalue hnull hmap))

/-- A file that upsets brings nothing, not even nothing at all. -/
theorem Brings.not_upsets (h : Brings w p base) : ¬Target.Upsets w p := by
  intro hupsets
  cases h with
  | file hfile hread =>
    obtain ⟨e, hfails, -⟩ := readLayer_of_upsets hupsets
    rw [hread] at hfails
    cases hfails
  | absent hfile =>
    rw [isFile_of_upsets hupsets] at hfile
    cases hfile

theorem Brings.unique (h : Brings w p base) (h' : Brings w p project) : base = project := by
  cases h with
  | file hfile hread =>
    cases h' with
    | file _ hread' => exact Except.ok.inj (hread.symm.trans hread')
    | absent hfile' =>
      rw [hfile] at hfile'
      cases hfile'
  | absent hfile =>
    cases h' with
    | file hfile' _ =>
      rw [hfile] at hfile'
      cases hfile'
    | absent _ => rfl

theorem Breached.not_upsets (h : Breached w p) : ¬Target.Upsets w p := by
  intro hupsets
  obtain ⟨e, hbroken, hanswered, -⟩ := readLayer_of_breached h
  obtain ⟨y, hread, hne⟩ := readLayer_of_upsets hupsets
  rw [hread] at hbroken
  obtain rfl := Except.error.inj hbroken
  rw [isBrokenLayer_yaml.mpr hne] at hanswered
  cases hanswered

theorem Breached.not_brings (h : Breached w p) : ¬Brings w p base := by
  intro hbrings
  obtain ⟨e, hbroken, -⟩ := readLayer_of_breached h
  cases hbrings with
  | file _ hread =>
    rw [hread] at hbroken
    cases hbroken
  | absent hfile =>
    rw [h.isFile] at hfile
    cases hfile

/-! ### What each layer comes to -/

theorem withUserLayer_of_breached (h : Breached w (userFile w)) :
    withUserLayer w base = ⟨[.globalConfigInvalid (userFile w).toString], .ok base⟩ := by
  obtain ⟨e, hread, hbroken, -⟩ := readLayer_of_breached h
  unfold withUserLayer
  rw [Journal.bind_ok _ _ true h.isFile]
  simp only [if_true, hread, hbroken]
  rfl

theorem withUserLayer_of_upsets (base : Entries) (h : Target.Upsets w (userFile w)) :
    ∃ e, withUserLayer w base = ⟨[], .error (.yaml e)⟩ ∧ e ≠ .malformed := by
  obtain ⟨e, hread, hne⟩ := readLayer_of_upsets h
  refine ⟨e, ?_, hne⟩
  unfold withUserLayer
  rw [Journal.bind_ok _ _ true (isFile_of_upsets h)]
  simp only [if_true, hread, isBrokenLayer_yaml.mpr hne]
  rfl

theorem withUserLayer_absent (h : w.isFile (userFile w) = .ok false) :
    withUserLayer w base = ⟨[], .ok base⟩ := by
  unfold withUserLayer
  rw [Journal.bind_ok _ _ false h]
  rfl

/-- The entries left are laid over the defaults. -/
theorem withUserLayer_of_leaves (h : Leaves w global) :
    (withUserLayer w defaults).outcome = layOver w.interpreter.mergeRoom defaults global := by
  cases h with
  | brought h => exact withUserLayer_of_brings h
  | passedOver h => rw [withUserLayer_of_breached h, layOver_nil]

theorem withProjectLayer_of_breached (base : Entries) (h : Breached w p) :
    ∃ e, withProjectLayer w p base = .error e ∧ IsConfigFault e := by
  obtain ⟨e, hread, -, hfault⟩ := readLayer_of_breached h
  refine ⟨_, ?_, hfault⟩
  unfold withProjectLayer
  rw [h.isFile, hread]
  rfl

theorem withProjectLayer_of_upsets (base : Entries) (h : Target.Upsets w p) :
    ∃ e, withProjectLayer w p base = .error (.yaml e) ∧ e ≠ .malformed := by
  obtain ⟨e, hread, hne⟩ := readLayer_of_upsets h
  refine ⟨e, ?_, hne⟩
  unfold withProjectLayer
  rw [isFile_of_upsets h, hread]
  cases e <;> first | rfl | exact absurd rfl hne

/-- What a project's layer comes to follows from where its file leads. -/
theorem withProjectLayer_congr (hinterpreter : w'.interpreter = w.interpreter)
    (h : w'.locate p = w.locate p) :
    withProjectLayer w' p base = withProjectLayer w p base := by
  have hread : readLayer w' p = readLayer w p := by
    rw [readLayer, readLayer, Target.readYaml, Target.readYaml, Workspace.readText,
      Workspace.readText, Workspace.openFile_congr h, hinterpreter]
  rw [withProjectLayer, withProjectLayer, Workspace.isFile_congr h, hread, hinterpreter]

/-! ### What the whole loading comes to -/

/-- What the layers come to is a configuration, or a problem of one. -/
def judged (entries : Entries) : Except Failure Entries :=
  match problemOf entries with
  | some problem => .error (.config problem)
  | none => .ok entries

theorem judged_fails (entries : Entries) : FailsWith IsConfigFault (judged entries) := by
  unfold judged
  cases problemOf entries with
  | some problem => exact ⟨problem, rfl⟩
  | none => trivial

theorem load_eq_layers :
    (load w dir named).outcome =
      (withUserLayer w defaults).outcome >>= fun base =>
        withProjectLayer w (projectFile dir named) base >>= judged := by
  unfold load
  rw [Journal.bind_outcome]
  congr 1
  funext base
  rw [Journal.bind_outcome, Journal.of_outcome]
  congr 1
  funext entries
  rw [judged]
  cases problemOf entries <;> rfl

/-- Only the user's layer is noted. -/
theorem load_events : (load w dir named).events = (withUserLayer w defaults).events := by
  unfold load
  cases huser : (withUserLayer w defaults).outcome with
  | error e => rw [Journal.bind_error _ _ e huser]
  | ok base =>
    rw [Journal.bind_events _ _ base huser]
    cases hproject : withProjectLayer w (projectFile dir named) base with
    | error e =>
      rw [Journal.bind_error _ _ e (by rw [Journal.of_outcome])]
      exact List.append_nil _
    | ok entries =>
      rw [Journal.bind_events _ _ entries (by rw [Journal.of_outcome])]
      cases problemOf entries <;> exact List.append_nil _

theorem load_of_leaves (h : Leaves w global) :
    (load w dir named).outcome =
      layOver w.interpreter.mergeRoom defaults global >>= fun base =>
        withProjectLayer w (projectFile dir named) base >>= judged := by
  rw [load_eq_layers, withUserLayer_of_leaves h]

/-- How a loading ends. -/
inductive Ending (w : Workspace) (p : Path) : Except Failure Entries → Prop
  /-- A file upsets, and the loading fails as its reading does. -/
  | upset {e : Yaml.Error} (h : Target.Upsets w (userFile w) ∨ Target.Upsets w p)
      (hne : e ≠ .malformed) : Ending w p (.error (.yaml e))
  /-- A layer goes too deep. -/
  | tooDeep (h : GoesTooDeep w p) : Ending w p (.error .mergeTooDeep)
  /-- There is a configuration, or it is told what is wrong with it. -/
  | told {r : Except Failure Entries} (huser : ¬Target.Upsets w (userFile w))
      (hproject : ¬Target.Upsets w p) (hfits : ¬GoesTooDeep w p) (h : FailsWith IsConfigFault r) :
      Ending w p r

theorem Leaves.not_upsets (h : Leaves w global) : ¬Target.Upsets w (userFile w) := by
  cases h with
  | brought h => exact h.not_upsets
  | passedOver h => exact h.not_upsets

theorem Leaves.sound (h : Leaves w global) : SoundEntries global := by
  cases h with
  | brought h => exact h.sound
  | passedOver _ => exact ⟨Distinct.nil, by simp⟩

theorem Leaves.unique (h : Leaves w global) (h' : Leaves w base) : global = base := by
  cases h with
  | brought h =>
    cases h' with
    | brought h' => exact h.unique h'
    | passedOver h' => exact absurd h h'.not_brings
  | passedOver h =>
    cases h' with
    | brought h' => exact absurd h' h.not_brings
    | passedOver _ => rfl

/-- A layer goes too deep exactly when laying it over what is below it fails so. -/
theorem goesTooDeep_iff (hglobal : Leaves w global) :
    GoesTooDeep w p ↔
      isTooDeep w.interpreter.mergeRoom defaults global = true ∨
        ∃ project, Brings w p project ∧
          isTooDeep w.interpreter.mergeRoom (merge w.interpreter.mergeRoom defaults global) project =
            true := by
  constructor
  · rintro ⟨global', hglobal', hdeep⟩
    obtain rfl := hglobal'.unique hglobal
    refine hdeep.imp (isTooDeep_iff hglobal.sound).mpr ?_
    rintro ⟨project, hproject, hdeep⟩
    exact ⟨project, hproject, (isTooDeep_iff hproject.sound).mpr hdeep⟩
  · intro hdeep
    refine ⟨global, hglobal, hdeep.imp (isTooDeep_iff hglobal.sound).mp ?_⟩
    rintro ⟨project, hproject, hdeep⟩
    exact ⟨project, hproject, (isTooDeep_iff hproject.sound).mp hdeep⟩

/-- What a project's layer comes to over what the user's file leaves, laid over the defaults. -/
theorem load_ends_of_base (hglobal : Leaves w global)
    (hfits : isTooDeep w.interpreter.mergeRoom defaults global = false)
    (hlook : w.Lookable p) :
    Ending w p
      (withProjectLayer w p (merge w.interpreter.mergeRoom defaults global) >>= judged) := by
  have hdeep_iff := goesTooDeep_iff (p := p) hglobal
  rw [hfits, or_iff_right Bool.false_ne_true] at hdeep_iff
  rcases layer_cases hlook with ⟨project, hproject⟩ | hproject | hproject
  · rw [withProjectLayer_of_brings hproject, layOver]
    cases hdeep : isTooDeep w.interpreter.mergeRoom (merge w.interpreter.mergeRoom defaults global)
        project with
    | true => exact .tooDeep (hdeep_iff.mpr ⟨project, hproject, hdeep⟩)
    | false =>
      refine .told hglobal.not_upsets hproject.not_upsets (fun h => ?_) (judged_fails _)
      obtain ⟨project', hproject', hdeep'⟩ := hdeep_iff.mp h
      rw [hproject'.unique hproject, hdeep] at hdeep'
      exact Bool.false_ne_true hdeep'
  · obtain ⟨e, hfails, hfault⟩ :=
      withProjectLayer_of_breached (merge w.interpreter.mergeRoom defaults global) hproject
    rw [hfails]
    refine .told hglobal.not_upsets hproject.not_upsets (fun h => ?_) hfault
    obtain ⟨project', hproject', -⟩ := hdeep_iff.mp h
    exact hproject.not_brings hproject'
  · obtain ⟨e, hfails, hne⟩ :=
      withProjectLayer_of_upsets (merge w.interpreter.mergeRoom defaults global) hproject
    rw [hfails]
    exact .upset (.inr hproject) hne

/-- What the project's layer comes to over what the user's file leaves. -/
theorem load_ends_of_leaves (hglobal : Leaves w global)
    (hlook : w.Lookable (projectFile dir named)) :
    Ending w (projectFile dir named) (load w dir named).outcome := by
  rw [load_of_leaves hglobal, layOver]
  cases hdeep : isTooDeep w.interpreter.mergeRoom defaults global with
  | true => exact .tooDeep ((goesTooDeep_iff hglobal).mpr (.inl hdeep))
  | false => exact load_ends_of_base hglobal hdeep hlook

theorem load_ends (huser : w.Lookable (userFile w))
    (hproject : w.Lookable (projectFile dir named)) :
    Ending w (projectFile dir named) (load w dir named).outcome := by
  rcases layer_cases huser with ⟨global, hglobal⟩ | hbreached | hupsets
  · exact load_ends_of_leaves (.brought hglobal) hproject
  · exact load_ends_of_leaves (.passedOver hbreached) hproject
  · obtain ⟨e, hfails, hne⟩ := withUserLayer_of_upsets defaults hupsets
    rw [load_eq_layers, hfails]
    exact .upset (.inl hupsets) hne

/-- A breached file of the user leaves a note, and else what a workspace without it gives. -/
theorem load_of_breached {place there : List String} {f g : File} (hw : w.Sound)
    (h : Breached w (userFile w)) (hplace : w.locate (userFile w) = .ok (place, .file f))
    (hthere : w.locate (projectFile dir named) = .ok (there, .file g)) (hne : there ≠ place) :
    (load w dir named).outcome = (load (w.without place) dir named).outcome ∧
      (load w dir named).events = [.globalConfigInvalid (userFile w).toString] ∧
      (load (w.without place) dir named).events = [] := by
  have hlacks := Workspace.lacks_without hw (Workspace.locate_eq_ok_iff.mp hplace).2.2
  have habsent : (w.without place).isFile (userFile (w.without place)) = .ok false :=
    hlacks.isFile_self hw hplace
  have hproject : (w.without place).locate (projectFile dir named) =
      w.locate (projectFile dir named) := by
    rw [hlacks.locate_other hw hthere hne, hthere]
  have hinterpreter : (w.without place).interpreter = w.interpreter := rfl
  refine ⟨?_, ?_, ?_⟩
  · rw [load_of_leaves (.passedOver h), load_of_leaves (.brought (.absent habsent))]
    refine bind_congr fun base => ?_
    rw [withProjectLayer_congr hinterpreter hproject]
  · rw [load_events, withUserLayer_of_breached h]
  · rw [load_events, withUserLayer_absent habsent]

/-- **A loading ends with a configuration or with a report of a faulty one exactly when neither file
upsets and no layer goes too deep; it ends in one of two other ways where one does.  A breached
file of the user changes nothing but that it is noted.** -/
theorem load_typed (hw : w.Sound) (huser : w.Lookable (userFile w))
    (hproject : w.Lookable (projectFile dir named)) :
    (FailsWith IsConfigFault (load w dir named).outcome ↔
      ¬Target.Upsets w (userFile w) ∧ ¬Target.Upsets w (projectFile dir named) ∧
        ¬GoesTooDeep w (projectFile dir named)) ∧
    FailsWith (fun e => IsConfigFault e ∨ (∃ y, e = .yaml y ∧ y ≠ .malformed) ∨ e = .mergeTooDeep)
      (load w dir named).outcome ∧
    ∀ place there f g, Breached w (userFile w) →
      w.locate (userFile w) = .ok (place, .file f) →
      w.locate (projectFile dir named) = .ok (there, .file g) → there ≠ place →
      (load w dir named).outcome = (load (w.without place) dir named).outcome ∧
        (load w dir named).events = [.globalConfigInvalid (userFile w).toString] ∧
        (load (w.without place) dir named).events = [] := by
  refine ⟨?_, ?_, fun place there f g => load_of_breached hw⟩
  · generalize hr : (load w dir named).outcome = r
    have hends := load_ends huser hproject
    rw [hr] at hends
    cases hends with
    | upset h hne =>
      constructor
      · rintro ⟨problem, ⟨⟩⟩
      · rintro ⟨hglobal, hlocal, -⟩
        exact absurd h (not_or.mpr ⟨hglobal, hlocal⟩)
    | tooDeep h =>
      constructor
      · rintro ⟨problem, ⟨⟩⟩
      · rintro ⟨-, -, hfits⟩
        exact absurd h hfits
    | told hglobal hlocal hfits h => exact ⟨fun _ => ⟨hglobal, hlocal, hfits⟩, fun _ => h⟩
  · generalize hr : (load w dir named).outcome = r
    have hends := load_ends huser hproject
    rw [hr] at hends
    cases hends with
    | upset h hne => exact .inr (.inl ⟨_, rfl, hne⟩)
    | tooDeep h => exact .inr (.inr rfl)
    | told _ _ _ h => exact FailsWith.weaken h fun e he => .inl he

/-- A file whose reading fails in a way that both layers answer is breached. -/
theorem breached_of_isBroken (hfile : w.isFile p = .ok true)
    (h : (match readLayer w p with
      | .ok _ => false
      | .error e => isBrokenLayer e) = true) : Breached w p := by
  rcases layer_cases ⟨true, hfile⟩ with ⟨es, hbrings⟩ | hbreached | hupsets
  · cases hbrings with
    | file _ hread =>
      rw [hread] at h
      cases h
    | absent habsent =>
      rw [hfile] at habsent
      cases habsent
  · exact hbreached
  · obtain ⟨e, hread, hne⟩ := readLayer_of_upsets hupsets
    rw [hread] at h
    exact absurd h (by simp [isBrokenLayer_yaml.mpr hne])

theorem sound_withFiles (user project : String) : (withFiles user project).Sound := by
  have hdir : FileName ".lintkit" := by decide +kernel
  have huser : FileName "config.yaml" := by decide +kernel
  have hproject : FileName ".lintkit.yaml" := by decide +kernel
  exact ⟨⟨hdir, ⟨huser, trivial, trivial⟩, hproject, trivial, trivial⟩, _, rfl⟩

/-- The user has a list where a mapping belongs, and the project names an analyzer. -/
def misshapen : Workspace := withFiles "- a\n" "analyzers: [a.py]\n"

theorem load_typed_of_misshapen :
    ∃ entries, (load misshapen "." none).outcome = .ok entries ∧
      (load (misshapen.without [".lintkit", "config.yaml"]) "." none).outcome = .ok entries ∧
      (load misshapen "." none).events =
        [.globalConfigInvalid (userFile misshapen).toString] := by
  have huser : misshapen.isFile (userFile misshapen) = .ok true := by decide +kernel
  have hproject : misshapen.isFile (projectFile "." none) = .ok true := by decide +kernel
  have hbreached : Breached misshapen (userFile misshapen) :=
    breached_of_isBroken huser (by decide +kernel)
  obtain ⟨-, -, hwithout⟩ := load_typed (sound_withFiles _ _) ⟨true, huser⟩ ⟨true, hproject⟩
  obtain ⟨hsame, hnoted, -⟩ := hwithout [".lintkit", "config.yaml"] [".lintkit.yaml"] _ _ hbreached
    rfl rfl (by decide)
  have hloads : (load misshapen "." none).outcome.isOk = true := by decide +kernel
  have hload := Outcome.eq_ok_of_isOk hloads []
  exact ⟨_, hload, hsame.symm.trans hload, hnoted⟩

/-! ### Bytes that are no text -/

open Yaml in
/-- A text that ends within the first blocks, because the file is no text from there on, is not
looked at at all. -/
theorem ofPortion_of_no_text {text : Text.Portion} (h : text.isWhole = false)
    (hshort : text.text.length < Source.firstBlocks * Source.blockLength) :
    Source.ofPortion text = ⟨[], some .undecodable⟩ := by
  obtain ⟨s, whole⟩ := text
  obtain rfl : whole = false := h
  have hblocks : s.length / Source.blockLength < Source.firstBlocks :=
    (Nat.div_lt_iff_lt_mul (by decide)).mpr hshort
  have hnone : Source.before (s.length / Source.blockLength) s .undecodable =
      ⟨[], some .undecodable⟩ := by
    rw [Source.before, if_pos hblocks]
  unfold Source.ofPortion
  cases s.findIdx? (!isText ·) with
  | none => exact hnone
  | some i =>
    have hfew : ¬(Source.firstBlocks ≤ s.length / Source.blockLength) := Nat.not_le.mpr hblocks
    simp only [hfew, decide_false, Bool.false_and, Bool.false_eq_true, if_false]
    exact hnone

theorem upsets_of_no_text {file : File} (hopen : w.openFile p = .ok file)
    (h : Text.Utf8.decode? file.bytes = none)
    (hshort : (Text.Portion.read file.bytes).text.length <
      Yaml.Source.firstBlocks * Yaml.Source.blockLength) : Target.Upsets w p := by
  refine ⟨file, .undecodable, hopen, ?_, by decide⟩
  have hpart : (Text.Portion.read file.bytes).isWhole = false := by
    rw [Text.Portion.isWhole_read, h]
    rfl
  rw [Yaml.valueOf, ofPortion_of_no_text hpart hshort]
  rfl

/-- A user's file that is no text ends the loading, with no note and no report. -/
theorem load_of_no_text {file : File} (hopen : w.openFile (userFile w) = .ok file)
    (h : Text.Utf8.decode? file.bytes = none)
    (hshort : (Text.Portion.read file.bytes).text.length <
      Yaml.Source.firstBlocks * Yaml.Source.blockLength) :
    (load w dir named).events = [] ∧ ¬FailsWith IsConfigFault (load w dir named).outcome := by
  obtain ⟨e, hfails, -⟩ := withUserLayer_of_upsets defaults (upsets_of_no_text hopen h hshort)
  rw [load_events, load_eq_layers, hfails]
  refine ⟨rfl, ?_⟩
  rintro ⟨problem, ⟨⟩⟩

end LintHost.Config
