/-
Letter case, and what surrounds a letter.

`SameLetters` are texts that differ only in the case of letters of the basic alphabet.  They have
one lowercase form, `lower_congr`, as the case of such a letter plays no part in what becomes of its
neighbours.

The lowercase form of a text may look basic where the text is not: a Kelvin sign becomes the letter
k, and a capital I with a dot above becomes an i and the dot.  These two are the only characters
beyond the basic alphabet that have a basic character in their lowercase form, and the dot is not
basic.  So a word in basic letters other than k is the lowercase form of the texts that have its
letters, and of no others, `lower_eq_iff`.

A capital sigma is final by what stands around it, so the lowercase form of the end of a text is not
the end of its lowercase form.  What stands before the end matters for one character of it at most,
`lowerAfter_eq_iff`: for a sigma that the end opens with, if it could be final.  Hence
`endsWith_lower_iff` says which ends of a text are found again in lowercase.
-/
import LintHost.Text.Lowercase
import LintHost.Text.Search

namespace LintHost.Text

/-- Have the same length, and at each place the same character up to the case of letters of the
basic alphabet. -/
def SameLetters (s t : List Char) : Prop := s.map Char.toLower = t.map Char.toLower

instance (s t : List Char) : Decidable (SameLetters s t) := inferInstanceAs (Decidable (_ = _))

variable {s t before : List Char} {c : Char}

theorem SameLetters.length_eq (h : SameLetters s t) : s.length = t.length := by
  have hlength := congrArg List.length h
  simpa using hlength

/-! ### The case of basic letters

Only the capitals have another form, and both forms of a letter are cased, and neither is passed
over.
-/

/-- Is the code of a capital letter of the basic alphabet, or of a small one. -/
abbrev IsCapital (n : Nat) : Prop := 65 ≤ n ∧ n ≤ 90
abbrev IsSmall (n : Nat) : Prop := 97 ≤ n ∧ n ≤ 122

theorem toLower_of_not_capital (h : ¬IsCapital c.toNat) : c.toLower = c := dif_neg h

theorem toNat_toLower (h : IsCapital c.toNat) : c.toLower.toNat = c.toNat + 32 := by
  have hcode : c.val.toNat ≤ 90 := h.2
  have hcapital : c.val ≥ 'A'.val ∧ c.val ≤ 'Z'.val := h
  have hlower : c.toLower = ⟨c.val + 32, _⟩ := dif_pos hcapital
  rw [hlower]
  show (c.val + 32).toNat = c.val.toNat + 32
  rw [UInt32.toNat_add]
  have hshift : (32 : UInt32).toNat = 32 := rfl
  omega

theorem isSmall_toLower (h : IsCapital c.toNat) : IsSmall c.toLower.toNat := by
  rw [toNat_toLower h]
  omega

theorem ignorableRanges_apart :
    ∀ r ∈ ignorableRanges, r.2 < 65 ∨ 90 < r.1 ∧ r.2 < 97 ∨ 122 < r.1 := by decide +kernel

theorem isIgnorable_letter (h : IsCapital c.toNat ∨ IsSmall c.toNat) : isIgnorable c = false := by
  rw [isIgnorable, inRanges, List.any_eq_false]
  intro r hr hin
  have hapart := ignorableRanges_apart r hr
  simp only [Bool.and_eq_true, decide_eq_true_eq] at hin
  omega

theorem isCased_letter (h : IsCapital c.toNat ∨ IsSmall c.toNat) : isCased c = true := by
  rw [isCased, inRanges, List.any_eq_true]
  rcases h with ⟨hge, hle⟩ | ⟨hge, hle⟩
  · exact ⟨(65, 90), by decide +kernel, by simp [hge, hle]⟩
  · exact ⟨(97, 122), by decide +kernel, by simp [hge, hle]⟩

theorem isIgnorable_toLower (c : Char) : isIgnorable c.toLower = isIgnorable c := by
  by_cases h : IsCapital c.toNat
  · rw [isIgnorable_letter (Or.inr (isSmall_toLower h)), isIgnorable_letter (Or.inl h)]
  · rw [toLower_of_not_capital h]

theorem isCased_toLower (c : Char) : isCased c.toLower = isCased c := by
  by_cases h : IsCapital c.toNat
  · rw [isCased_letter (Or.inr (isSmall_toLower h)), isCased_letter (Or.inl h)]
  · rw [toLower_of_not_capital h]

theorem lowerChar_toLower (c : Char) : lowerChar c.toLower = lowerChar c := by
  by_cases h : IsCapital c.toNat
  · have hsmall := isSmall_toLower h
    have hself : c.toLower.toLower = c.toLower := toLower_of_not_capital (by omega)
    rw [lowerChar_ascii (by omega), lowerChar_ascii (by omega), hself]
  · rw [toLower_of_not_capital h]

theorem toLower_eq_capitalSigma_iff : c.toLower = capitalSigma ↔ c = capitalSigma := by
  by_cases h : IsCapital c.toNat
  · have hcode : capitalSigma.toNat = 0x3A3 := by decide
    have hsmall := isSmall_toLower h
    constructor
    · intro heq
      rw [heq] at hsmall
      omega
    · intro heq
      rw [heq] at h
      omega
  · rw [toLower_of_not_capital h]

theorem meetsCased_cons (c : Char) (s : List Char) :
    meetsCased (c :: s) = if isIgnorable c then meetsCased s else isCased c := by
  unfold meetsCased
  by_cases hc : isIgnorable c = true
  · rw [List.dropWhile_cons, if_pos hc, if_pos hc]
  · rw [List.dropWhile_cons, if_neg hc, if_neg hc]

theorem meetsCased_map_toLower (s : List Char) :
    meetsCased (s.map Char.toLower) = meetsCased s := by
  induction s with
  | nil => rfl
  | cons c s ih =>
    rw [List.map_cons, meetsCased_cons, meetsCased_cons, isIgnorable_toLower, isCased_toLower, ih]

theorem lowerAfter_map_toLower (before s : List Char) :
    lowerAfter (before.map Char.toLower) (s.map Char.toLower) = lowerAfter before s := by
  induction s generalizing before with
  | nil => rfl
  | cons c s ih =>
    have hrest := ih (c :: before)
    rw [List.map_cons] at hrest
    rw [List.map_cons, lowerAfter, lowerAfter, meetsCased_map_toLower, meetsCased_map_toLower,
      lowerChar_toLower, hrest]
    simp only [toLower_eq_capitalSigma_iff]

/-- **Texts with the same letters have one lowercase form.** -/
theorem lower_congr (h : SameLetters s t) : lower s = lower t := by
  have hfold : ∀ u : List Char, lower u = lower (u.map Char.toLower) := fun u =>
    (lowerAfter_map_toLower [] u).symm
  rw [hfold s, hfold t, h]

/-! ### Characters beyond the basic alphabet -/

/-- The sign of a unit whose lowercase form is the basic letter k. -/
def kelvinSign : Char := Char.ofNat 0x212A

/-- The lowercase forms of a run are characters beyond the basic alphabet, if its own characters
are; the Kelvin sign is a run of its own. -/
def CaseRun.StaysBeyond (r : CaseRun) : Prop :=
  r.last < 0x80 ∨ r.first = 0x212A ∧ r.last = 0x212A ∨
    0x80 ≤ r.first + r.shift ∧ r.last + r.shift < 0xD800 ∨
    0xE000 ≤ r.first + r.shift ∧ r.last + r.shift < 0x110000

instance (r : CaseRun) : Decidable r.StaysBeyond := inferInstanceAs (Decidable (_ ∨ _))

theorem staysBeyond_lowerRuns : ∀ r ∈ lowerRuns, r.StaysBeyond := by decide +kernel

/-- A number in a run that stays beyond has a lowercase form there. -/
theorem CaseRun.StaysBeyond.le_toNat {r : CaseRun} {n : Nat} (hr : r.StaysBeyond)
    (hholds : r.holds n = true) (hn : 0x80 ≤ n) (hkelvin : n ≠ 0x212A) :
    0x80 ≤ (Char.ofNat ((n : Int) + r.shift).toNat).toNat := by
  have hin : r.first ≤ n ∧ n ≤ r.last := by
    simp only [CaseRun.holds, Bool.and_eq_true, decide_eq_true_eq] at hholds
    exact hholds.1
  have hcode : ((n : Int) + r.shift).toNat < 0xD800 ∨
      0xDFFF < ((n : Int) + r.shift).toNat ∧ ((n : Int) + r.shift).toNat < 0x110000 := by
    rcases hr with hr | hr | hr | hr <;> omega
  have hbeyond : 0x80 ≤ ((n : Int) + r.shift).toNat := by
    rcases hr with hr | hr | hr | hr <;> omega
  rw [Char.ofNat, dif_pos hcode]
  exact hbeyond

theorem exists_beyond_of_mem_lowerChar (hc : 0x80 ≤ c.toNat) (hkelvin : c ≠ kelvinSign) :
    ∃ d ∈ lowerChar c, 0x80 ≤ d.toNat := by
  unfold lowerChar
  simp only
  rw [if_neg (by omega)]
  split
  · exact ⟨Char.ofNat 0x307, by simp, by decide⟩
  · split
    · rename_i r hr
      refine ⟨_, List.mem_singleton_self _, ?_⟩
      have hne : c.toNat ≠ 0x212A := by
        intro hcode
        exact hkelvin (by rw [← Char.ofNat_toNat c, hcode]; rfl)
      have hholds : r.holds c.toNat = true := List.find?_some (p := (CaseRun.holds · c.toNat)) hr
      exact (staysBeyond_lowerRuns r (List.mem_of_find?_eq_some hr)).le_toNat hholds hc hne
    · exact ⟨c, List.mem_singleton_self c, hc⟩

theorem lowerChar_kelvinSign : lowerChar kelvinSign = ['k'] := by decide +kernel

/-- A character beyond the basic alphabet leaves a trace in the lowercase form of its text. -/
theorem exists_trace (hmem : c ∈ s) (hc : 0x80 ≤ c.toNat) :
    ∃ d ∈ lowerAfter before s, 0x80 ≤ d.toNat ∨ d = 'k' := by
  induction s generalizing before with
  | nil => cases hmem
  | cons e rest ih =>
    rw [lowerAfter]
    rcases List.mem_cons.mp hmem with rfl | hmem
    · by_cases hsigma : c = capitalSigma
      · rw [if_pos hsigma]
        refine ⟨_, List.mem_append_left _ (List.mem_singleton_self _), Or.inl ?_⟩
        split <;> decide
      · rw [if_neg hsigma]
        by_cases hkelvin : c = kelvinSign
        · rw [hkelvin, lowerChar_kelvinSign]
          exact ⟨'k', by simp, Or.inr rfl⟩
        · obtain ⟨d, hd, hbeyond⟩ := exists_beyond_of_mem_lowerChar hc hkelvin
          exact ⟨d, List.mem_append_left _ hd, Or.inl hbeyond⟩
    · obtain ⟨d, hd, htrace⟩ := ih hmem
      exact ⟨d, List.mem_append_right _ hd, htrace⟩

/-- Is written in basic characters, with no capital letter and no k. -/
def PlainWord (w : List Char) : Prop := ∀ d ∈ w, d.toNat < 0x80 ∧ d ≠ 'k' ∧ d.toLower = d

instance (w : List Char) : Decidable (PlainWord w) := List.decidableBAll _ w

/-- **A plain word is the lowercase form of the texts with its letters, and of no others.** -/
theorem lower_eq_iff {w : List Char} (hw : PlainWord w) : lower s = w ↔ SameLetters s w := by
  have hself : w.map Char.toLower = w := by
    rw [List.map_congr_left fun d hd => (hw d hd).2.2]
    simp
  constructor
  · intro h
    -- No character can be beyond the basic alphabet, for it would have left a trace in the word.
    have hbasic : ∀ c ∈ s, c.toNat < 0x80 := by
      intro c hc
      rcases Nat.lt_or_ge c.toNat 0x80 with hlt | hbeyond
      · exact hlt
      · obtain ⟨d, hd, htrace⟩ := exists_trace hc hbeyond
        rw [← lower, h] at hd
        obtain ⟨hlt, hk, -⟩ := hw d hd
        rcases htrace with hge | rfl
        · omega
        · exact absurd rfl hk
    rw [SameLetters, hself, ← lower_ascii s hbasic, h]
  · intro h
    rw [lower_congr h, lower_ascii w fun d hd => (hw d hd).1, hself]

/-! ### What stands around a capital sigma -/

/-- What stands before a text matters only in whether a cased character is met there. -/
theorem lowerAfter_congr {before' : List Char} (h : meetsCased before = meetsCased before') :
    lowerAfter before s = lowerAfter before' s := by
  induction s generalizing before before' with
  | nil => rfl
  | cons c rest ih =>
    have hmore : meetsCased (c :: before) = meetsCased (c :: before') := by
      rw [meetsCased_cons, meetsCased_cons, h]
    rw [lowerAfter, lowerAfter, h, ih hmore]

theorem length_lowerAfter (before before' s : List Char) :
    (lowerAfter before s).length = (lowerAfter before' s).length := by
  induction s generalizing before before' with
  | nil => rfl
  | cons c rest ih =>
    rw [lowerAfter, lowerAfter, List.length_append, List.length_append,
      ih (c :: before) (c :: before')]
    by_cases hc : c = capitalSigma
    · rw [if_pos hc, if_pos hc]
      rfl
    · rw [if_neg hc, if_neg hc]

/-- The end of a text is lowered last, behind all that stands before it. -/
theorem lowerAfter_append (before front s : List Char) :
    ∃ lowered,
      lowerAfter before (front ++ s) = lowered ++ lowerAfter (front.reverse ++ before) s := by
  induction front generalizing before with
  | nil => exact ⟨[], rfl⟩
  | cons c front ih =>
    obtain ⟨lowered, h⟩ := ih (c :: before)
    rw [List.cons_append, lowerAfter, h, List.reverse_cons, List.append_assoc]
    exact ⟨_, (List.append_assoc _ _ _).symm⟩

/-- The first character that is not passed over is a capital sigma, and no cased one is met behind
it. -/
def OpensWithSigma (s : List Char) : Prop :=
  ∃ rest, s.dropWhile isIgnorable = capitalSigma :: rest ∧ meetsCased rest = false

theorem opensWithSigma_cons_ignorable (hc : isIgnorable c = true) :
    OpensWithSigma (c :: s) ↔ OpensWithSigma s := by
  rw [OpensWithSigma, List.dropWhile_cons, if_pos hc]
  rfl

theorem opensWithSigma_cons (hc : isIgnorable c = false) :
    OpensWithSigma (c :: s) ↔ c = capitalSigma ∧ meetsCased s = false := by
  rw [OpensWithSigma, List.dropWhile_cons, if_neg (by simp [hc])]
  simp [and_assoc]

theorem OpensWithSigma.mem (h : OpensWithSigma s) : capitalSigma ∈ s := by
  obtain ⟨rest, hrest, -⟩ := h
  have hmem : capitalSigma ∈ s.dropWhile isIgnorable := by simp [hrest]
  exact (List.dropWhile_suffix _).subset hmem

theorem capitalSigma_not_ignorable : isIgnorable capitalSigma = false := by decide +kernel

/-- **A cased character before a text changes its lowercase form exactly where the text opens with a
capital sigma that it makes final.** -/
theorem lowerAfter_eq_iff {before' : List Char} (hcased : meetsCased before = true)
    (hnone : meetsCased before' = false) :
    lowerAfter before s = lowerAfter before' s ↔ ¬OpensWithSigma s := by
  -- The two befores differ up to the first character that is not passed over, and agree behind it.
  induction s generalizing before before' with
  | nil =>
    refine iff_of_true rfl ?_
    rintro ⟨rest, hrest, -⟩
    cases hrest
  | cons c rest ih =>
    rw [lowerAfter, lowerAfter]
    by_cases hc : isIgnorable c = true
    · have hsigma : c ≠ capitalSigma := by
        rintro rfl
        rw [capitalSigma_not_ignorable] at hc
        cases hc
      have hcased' : meetsCased (c :: before) = true := by
        rw [meetsCased_cons, if_pos hc, hcased]
      have hnone' : meetsCased (c :: before') = false := by
        rw [meetsCased_cons, if_pos hc, hnone]
      rw [if_neg hsigma, if_neg hsigma, List.append_cancel_left_eq,
        opensWithSigma_cons_ignorable hc]
      exact ih hcased' hnone'
    · have hsame : meetsCased (c :: before) = meetsCased (c :: before') := by
        rw [meetsCased_cons, meetsCased_cons, if_neg hc, if_neg hc]
      rw [opensWithSigma_cons (by simpa using hc), lowerAfter_congr hsame,
        List.append_cancel_right_eq, hcased, hnone]
      have hforms : finalSigma ≠ smallSigma := by decide
      by_cases hsigma : c = capitalSigma
      · cases hrest : meetsCased rest <;> simp [hsigma, hforms]
      · simp [hsigma]

/-- **The end of a text is the end of its lowercase form as well, unless it opens with a capital
sigma that the rest of the text makes final.** -/
theorem endsWith_lower_iff (front s : List Char) :
    endsWith (lower (front ++ s)) (lower s) = true ↔
      ¬(meetsCased front.reverse = true ∧ OpensWithSigma s) := by
  obtain ⟨lowered, hlower⟩ := lowerAfter_append [] front s
  rw [List.append_nil] at hlower
  have hends : endsWith (lower (front ++ s)) (lower s) = true ↔
      lowerAfter front.reverse s = lowerAfter [] s := by
    rw [endsWith, List.isSuffixOf_iff_suffix, lower, lower, hlower]
    constructor
    · rintro ⟨more, hmore⟩
      exact (List.append_inj' hmore (length_lowerAfter _ _ _)).2.symm
    · intro h
      rw [h]
      exact List.suffix_append _ _
  rw [hends]
  cases hcased : meetsCased front.reverse with
  | true =>
    rw [lowerAfter_eq_iff hcased rfl]
    simp
  | false =>
    refine iff_of_true (lowerAfter_congr hcased) ?_
    simp

end LintHost.Text
