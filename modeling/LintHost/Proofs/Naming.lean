/-
Names of severities and of report formats.

A name is read in any case of its letters and with blanks around it: `Spells` says what that is
without trimming anything and without lowercase forms.  `names_recognised` says that a severity or a
format is found by the texts that spell its name and by no others.  What spells none of the names is
an unknown severity, and no format, so that a configuration with it is refused.

The names are plain words without a k.  So no text with a character beyond the basic alphabet in it
spells one, blanks at its ends apart, however the character looks in lowercase.
-/
import LintHost.Command.Run
import LintHost.Proofs.Text.Lowercase
import Mathlib.Data.List.TakeWhile
import Mathlib.Tactic.ByContra

namespace LintHost

namespace Text

variable {s t before core after word : List Char} {c : Char}

/-! ### Trimming -/

theorem stripLeft_append (h : ∀ c ∈ before, isBlank c = true) :
    stripLeft (before ++ s) = stripLeft s := List.dropWhile_append_of_pos h

theorem stripRight_append (h : ∀ c ∈ after, isBlank c = true) :
    stripRight (s ++ after) = stripRight s := by
  have hback : ∀ c ∈ after.reverse, isBlank c = true := fun c hc => h c (List.mem_reverse.mp hc)
  rw [stripRight, List.reverse_append, List.dropWhile_append_of_pos hback, stripRight]

/-- Blanks around a text are taken off, and the text is left. -/
theorem strip_of_around (hbefore : ∀ c ∈ before, isBlank c = true)
    (hcore : ∀ c ∈ core, isBlank c = false) (hafter : ∀ c ∈ after, isBlank c = true) :
    strip (before ++ core ++ after) = core := by
  rw [List.append_assoc, strip, stripLeft_append hbefore]
  cases core with
  | nil =>
    rw [List.nil_append, stripLeft, List.dropWhile_eq_nil_iff.mpr hafter]
    rfl
  | cons c rest =>
    have hc : isBlank c = false := hcore c (by simp)
    rw [List.cons_append, stripLeft_of_head _ hc, ← List.cons_append, stripRight_append hafter]
    have hself : strip (c :: rest) = c :: rest := by
      apply strip_of_trimmed
      · intro d hd
        exact hcore d (List.mem_of_mem_head? hd)
      · intro d hd
        exact hcore d (List.mem_of_getLast? hd)
    rw [strip, stripLeft_of_head rest hc] at hself
    exact hself

/-- A text is its trimmed form with blanks around it. -/
theorem exists_around (s : List Char) :
    ∃ before after, s = before ++ strip s ++ after ∧ (∀ c ∈ before, isBlank c = true) ∧
      ∀ c ∈ after, isBlank c = true := by
  refine ⟨s.takeWhile isBlank, ((stripLeft s).reverse.takeWhile isBlank).reverse, ?_, ?_, ?_⟩
  · have hback : strip s ++ ((stripLeft s).reverse.takeWhile isBlank).reverse = stripLeft s := by
      rw [strip, stripRight, ← List.reverse_append, List.takeWhile_append_dropWhile,
        List.reverse_reverse]
    rw [List.append_assoc, hback, stripLeft, List.takeWhile_append_dropWhile]
  · intro c hc
    exact List.mem_takeWhile_imp hc
  · intro c hc
    exact List.mem_takeWhile_imp (List.mem_reverse.mp hc)

/-! ### Spellings of a word -/

theorem isBlank_toLower (c : Char) : isBlank c.toLower = isBlank c := by
  by_cases h : IsCapital c.toNat
  · have hsmall := isSmall_toLower h
    have hnone : isBlank c.toLower = false ∧ isBlank c = false := by
      simp [isBlank]
      omega
    rw [hnone.1, hnone.2]
  · rw [toLower_of_not_capital h]

theorem SameLetters.exists_mem (h : SameLetters s t) (hc : c ∈ s) :
    ∃ d ∈ t, d.toLower = c.toLower := by
  have hmem : c.toLower ∈ t.map Char.toLower := h ▸ List.mem_map_of_mem hc
  exact List.mem_map.mp hmem

/-- Has the letters of a word, in any case, and blanks around them. -/
def Spells (s word : List Char) : Prop :=
  ∃ before core after, s = before ++ core ++ after ∧ (∀ c ∈ before, isBlank c = true) ∧
    (∀ c ∈ after, isBlank c = true) ∧ core.length = word.length ∧ SameLetters core word

/-- Is a plain word without blanks in it. -/
def NameWord (word : List Char) : Prop := PlainWord word ∧ ∀ c ∈ word, isBlank c = false

instance (word : List Char) : Decidable (NameWord word) :=
  have : Decidable (∀ c ∈ word, isBlank c = false) := List.decidableBAll _ word
  inferInstanceAs (Decidable (_ ∧ _))

theorem spells_iff (hword : ∀ c ∈ word, isBlank c = false) :
    Spells s word ↔ SameLetters (strip s) word := by
  constructor
  · rintro ⟨before, core, after, rfl, hbefore, hafter, -, hcore⟩
    have hfree : ∀ c ∈ core, isBlank c = false := by
      intro c hc
      obtain ⟨d, hd, hsame⟩ := hcore.exists_mem hc
      rw [← isBlank_toLower, ← hsame, isBlank_toLower]
      exact hword d hd
    rw [strip_of_around hbefore hfree hafter]
    exact hcore
  · intro h
    obtain ⟨before, after, hs, hbefore, hafter⟩ := exists_around s
    exact ⟨before, strip s, after, hs, hbefore, hafter, h.length_eq, h⟩

/-- **A name is what a text is trimmed and lowered to exactly where the text spells it.** -/
theorem lower_strip_eq_iff (hword : NameWord word) : lower (strip s) = word ↔ Spells s word := by
  rw [lower_eq_iff hword.1, spells_iff hword.2]

/-- What spells a name has no character beyond the basic alphabet in it but blanks. -/
theorem not_spells_of_beyond (hword : PlainWord word) (hmem : c ∈ s) (hc : 0x80 ≤ c.toNat)
    (hblank : isBlank c = false) : ¬Spells s word := by
  rintro ⟨before, core, after, rfl, hbefore, hafter, -, hcore⟩
  rw [List.mem_append, List.mem_append] at hmem
  rcases hmem with (hmem | hmem) | hmem
  · exact absurd (hbefore c hmem) (by simp [hblank])
  · obtain ⟨d, hd, hsame⟩ := hcore.exists_mem hmem
    obtain ⟨hbasic, -, hself⟩ := hword d hd
    rw [toLower_of_not_capital (c := c) (by omega), hself] at hsame
    rw [hsame] at hbasic
    omega
  · exact absurd (hafter c hmem) (by simp [hblank])

end Text

open Text

/-- What is looked up under a key that no two items share. -/
theorem find?_key_eq_some_iff {α β : Type} [BEq β] [LawfulBEq β] {key : α → β}
    (hkey : Function.Injective key) {l : List α} {a : α} (ha : a ∈ l) {k : β} :
    (l.find? fun b => key b == k) = some a ↔ k = key a := by
  constructor
  · intro h
    have hfound := List.find?_some h
    exact (eq_of_beq hfound).symm
  · rintro rfl
    cases hfind : l.find? fun b => key b == key a with
    | none => exact absurd (List.find?_eq_none.mp hfind a ha) (by simp)
    | some b => rw [hkey (eq_of_beq (List.find?_some (p := fun b => key b == key a) hfind))]

/-! ### Severities -/

namespace Severity

variable {v : Severity} {s : String}

theorem name_injective : Function.Injective fun v : Severity => v.name.toList := by
  intro v u h
  cases v <;> cases u <;> first | rfl | exact absurd h (by decide)

theorem nameWord_name (hv : v ≠ .unknown) : NameWord v.name.toList := by
  cases v with
  | unknown => exact absurd rfl hv
  | _ => decide

theorem coerce_eq_iff (hv : v ≠ .unknown) :
    coerce (.str s) = v ↔ Spells s.toList v.name.toList := by
  have hmem : v ∈ all := by cases v <;> decide
  rw [← lower_strip_eq_iff (nameWord_name hv), ← find?_key_eq_some_iff name_injective hmem, coerce,
    ofName]
  cases all.find? fun v => v.name.toList == lower (strip s.toList) with
  | none => simp [hv.symm]
  | some u => simp

theorem coerce_eq_unknown_iff :
    coerce (.str s) = .unknown ↔ ∀ v : Severity, v ≠ .unknown → ¬Spells s.toList v.name.toList := by
  constructor
  · intro h v hv hspells
    rw [← coerce_eq_iff hv, h] at hspells
    exact hv hspells.symm
  · intro h
    by_contra hv
    exact h _ hv ((coerce_eq_iff hv).mp rfl)

end Severity

/-! ### Formats -/

namespace Report.Format

variable {f : Format} {s : String}

theorem name_injective : Function.Injective fun f : Format => f.name.toList := by
  intro f g h
  cases f <;> cases g <;> first | rfl | exact absurd h (by decide)

theorem nameWord_name (f : Format) : NameWord f.name.toList := by
  cases f <;> decide

theorem ofName?_eq_some_iff : ofName? s = some f ↔ Spells s.toList f.name.toList := by
  have hmem : f ∈ all := by cases f <;> decide
  rw [← lower_strip_eq_iff (nameWord_name f), ← find?_key_eq_some_iff name_injective hmem]
  rfl

end Report.Format

/-! ### What is read -/

variable {s : String}

/-- The format that a configuration names is the one whose name it spells. -/
theorem chooseFormat_eq_ok_iff {settings : Command.Settings} {output : OutputConfig}
    {f : Report.Format} (hnone : settings.format = none) :
    Command.chooseFormat settings output = .ok f ↔ Spells output.format.toList f.name.toList := by
  rw [← Report.Format.ofName?_eq_some_iff, Command.chooseFormat, hnone]
  cases Report.Format.ofName? output.format <;> simp

theorem chooseFormat_eq_error {settings : Command.Settings} {output : OutputConfig}
    (hnone : settings.format = none)
    (h : ∀ f : Report.Format, ¬Spells output.format.toList f.name.toList) :
    Command.chooseFormat settings output = .error (.unknownFormat output.format) := by
  rw [Command.chooseFormat, hnone]
  cases hfound : Report.Format.ofName? output.format with
  | none => rfl
  | some f => exact absurd (Report.Format.ofName?_eq_some_iff.mp hfound) (h f)

/-- **A severity and a format are read from the texts that spell their names, and from no others.
Any other text is an unknown severity, and refused as a format; so is every text with a character
beyond the basic alphabet that is no blank.** -/
theorem names_recognised (s : String) :
    (∀ v : Severity, v ≠ .unknown →
      (Severity.coerce (.str s) = v ↔ Spells s.toList v.name.toList)) ∧
    (Severity.coerce (.str s) = .unknown ↔
      ∀ v : Severity, v ≠ .unknown → ¬Spells s.toList v.name.toList) ∧
    (∀ f, Report.Format.ofName? s = some f ↔ Spells s.toList f.name.toList) ∧
    (∀ settings output, settings.format = none → output.format = s →
      (∀ f, Command.chooseFormat settings output = .ok f ↔ Spells s.toList f.name.toList) ∧
      ((∀ f : Report.Format, ¬Spells s.toList f.name.toList) →
        Command.chooseFormat settings output = .error (.unknownFormat s))) ∧
    ∀ c ∈ s.toList, 0x80 ≤ c.toNat → isBlank c = false →
      Severity.coerce (.str s) = .unknown ∧ Report.Format.ofName? s = none := by
  refine ⟨fun v hv => Severity.coerce_eq_iff hv, Severity.coerce_eq_unknown_iff,
    fun f => Report.Format.ofName?_eq_some_iff, ?_, ?_⟩
  · rintro settings output hnone rfl
    exact ⟨fun f => chooseFormat_eq_ok_iff hnone, chooseFormat_eq_error hnone⟩
  · intro c hmem hc hblank
    constructor
    · refine Severity.coerce_eq_unknown_iff.mpr fun v hv => ?_
      exact not_spells_of_beyond (Severity.nameWord_name hv).1 hmem hc hblank
    · refine Option.eq_none_iff_forall_ne_some.mpr fun f hf => ?_
      exact not_spells_of_beyond (Report.Format.nameWord_name f).1 hmem hc hblank
        (Report.Format.ofName?_eq_some_iff.mp hf)

/-- A name in mixed case between blanks, and four texts that look like names: with a long s, with a
dotted capital I, with full-width letters, and with a Kelvin sign. -/
theorem names_recognised_of_lookalikes :
    (Spells "\u3000eRRor\x85".toList "error".toList ∧
      Severity.coerce (.str "\u3000eRRor\x85") = .error) ∧
    (Spells "\x1cSaRiF\n".toList "sarif".toList ∧
      Report.Format.ofName? "\x1cSaRiF\n" = some .sarif) ∧
    Report.Format.ofName? "\u017farif" = none ∧ Severity.coerce (.str "H\u0130NT") = .unknown ∧
    Report.Format.ofName? "\uff54\uff45\uff58\uff54" = none ∧
    Severity.coerce (.str "in\u212afo") = .unknown := by
  have herror : Spells "\u3000eRRor\x85".toList "error".toList :=
    ⟨['\u3000'], "eRRor".toList, ['\x85'], by decide, List.forall_mem_singleton.mpr (by decide),
      List.forall_mem_singleton.mpr (by decide), rfl, by decide⟩
  have hsarif : Spells "\x1cSaRiF\n".toList "sarif".toList :=
    ⟨['\x1c'], "SaRiF".toList, ['\n'], by decide, List.forall_mem_singleton.mpr (by decide),
      List.forall_mem_singleton.mpr (by decide), rfl, by decide⟩
  obtain ⟨hseverity, -⟩ := names_recognised "\u3000eRRor\x85"
  obtain ⟨-, -, hformat, -⟩ := names_recognised "\x1cSaRiF\n"
  obtain ⟨-, -, -, -, hlong⟩ := names_recognised "\u017farif"
  obtain ⟨-, -, -, -, hdotted⟩ := names_recognised "H\u0130NT"
  obtain ⟨-, -, -, -, hwide⟩ := names_recognised "\uff54\uff45\uff58\uff54"
  obtain ⟨-, -, -, -, hkelvin⟩ := names_recognised "in\u212afo"
  refine ⟨⟨herror, (hseverity .error (by decide)).mpr herror⟩,
    ⟨hsarif, (hformat .sarif).mpr hsarif⟩, ?_, ?_, ?_, ?_⟩
  · exact (hlong '\u017f' (by decide) (by decide) (by decide)).2
  · exact (hdotted '\u0130' (by decide) (by decide) (by decide)).1
  · exact (hwide '\uff54' (by decide) (by decide) (by decide)).2
  · exact (hkelvin '\u212a' (by decide) (by decide) (by decide)).1

end LintHost
