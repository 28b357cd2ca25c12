/-
Kinds of files by their names.

A path is of a kind when its last name ends with one of the suffixes of the kind, and the case of
letters does not count.  Name and suffix are made lowercase each by itself, so a name may end with a
suffix, character for character, and not have it: `hasSuffix_singleton_iff` says that this happens
where the suffix opens with a capital sigma which is final in the name and not in the suffix.

`hasSuffix_extends` puts together what a suffix recognises, and `hasSuffix_extends_of_sigma` shows a
name that its own suffix does not recognise.
-/
import LintHost.Proofs.Target.Units
import LintHost.Proofs.Text.Lowercase

namespace LintHost.Target

open Text

variable {p q : Path} {s : String} {suffixes : List String}

/-- A name has one of the suffixes when it has a suffix among them. -/
theorem hasSuffix_iff_exists :
    hasSuffix p suffixes = true ↔ ∃ s ∈ suffixes, hasSuffix p [s] = true := by
  rw [hasSuffix_iff]
  simp [hasSuffix_iff]

/-- **A suffix that a name ends with is recognised, unless it opens with a capital sigma that the
front of the name makes final.** -/
theorem hasSuffix_singleton_iff {front : List Char} (h : p.name.toList = front ++ s.toList) :
    hasSuffix p [s] = true ↔ ¬(meetsCased front.reverse = true ∧ OpensWithSigma s.toList) := by
  rw [← endsWith_lower_iff, ← h, hasSuffix_iff]
  simp

theorem hasSuffix_of_suffix (hs : s ∈ suffixes) (hends : s.toList <:+ p.name.toList)
    (hsigma : capitalSigma ∉ s.toList) : hasSuffix p suffixes = true := by
  obtain ⟨front, hfront⟩ := hends
  refine hasSuffix_iff_exists.mpr ⟨s, hs, (hasSuffix_singleton_iff hfront.symm).mpr ?_⟩
  rintro ⟨-, hopens⟩
  exact hsigma hopens.mem

/-- Suffixes with the same letters are found in names with the same letters. -/
theorem hasSuffix_of_sameLetters {suffixes' : List String}
    (hname : SameLetters p.name.toList q.name.toList)
    (hsuffixes : List.Forall₂ (fun s s' => SameLetters s.toList s'.toList) suffixes suffixes') :
    hasSuffix p suffixes = hasSuffix q suffixes' := by
  unfold hasSuffix
  rw [lower_congr hname]
  induction hsuffixes with
  | nil => rfl
  | cons hs hrest ih => rw [List.any_cons, List.any_cons, lower_congr hs, ih]

/-- **Suffixes are recognised one by one, in any case of their basic letters and of those of the
name; and where a name ends with a suffix, the suffix is recognised, unless it opens with a capital
sigma that is final in the name.** -/
theorem hasSuffix_extends (p : Path) (suffixes : List String) :
    (hasSuffix p suffixes = true ↔ ∃ s ∈ suffixes, hasSuffix p [s] = true) ∧
    (∀ s front, p.name.toList = front ++ s.toList →
      (hasSuffix p [s] = true ↔
        ¬(meetsCased front.reverse = true ∧ OpensWithSigma s.toList))) ∧
    (∀ s ∈ suffixes, s.toList <:+ p.name.toList → capitalSigma ∉ s.toList →
      hasSuffix p suffixes = true) ∧
    ∀ q suffixes', SameLetters p.name.toList q.name.toList →
      List.Forall₂ (fun s s' => SameLetters s.toList s'.toList) suffixes suffixes' →
        hasSuffix p suffixes = hasSuffix q suffixes' :=
  ⟨hasSuffix_iff_exists, fun _ _ => hasSuffix_singleton_iff, fun _ => hasSuffix_of_suffix,
    fun _ _ => hasSuffix_of_sameLetters⟩

/-- A suffix in other letters than the name has it, and one that the name ends with and does not
have: the sigma is final behind the x, and it is not where the suffix stands alone. -/
theorem hasSuffix_extends_of_sigma :
    let sources := [".txt", ".Py"]
    (SameLetters "ΟΔΟΣ.PY".toList "ΟΔΟΣ.py".toList ∧ ".py".toList <:+ "ΟΔΟΣ.py".toList ∧
      hasSuffix ⟨.relative, ["src", "ΟΔΟΣ.PY"]⟩ sources = true) ∧
    (".Σ".toList <:+ "x.Σ".toList ∧ hasSuffix ⟨.relative, ["x.Σ"]⟩ [".Σ"] = false) := by
  intro sources
  obtain ⟨-, -, hliteral, -⟩ := hasSuffix_extends ⟨.slash, ["ΟΔΟΣ.py"]⟩ [".txt", ".py"]
  obtain ⟨-, -, -, hletters⟩ := hasSuffix_extends ⟨.relative, ["src", "ΟΔΟΣ.PY"]⟩ sources
  obtain ⟨-, hexact, -, -⟩ := hasSuffix_extends ⟨.relative, ["x.Σ"]⟩ [".Σ"]
  refine ⟨⟨by decide, by decide, ?_⟩, by decide, ?_⟩
  · rw [hletters ⟨.slash, ["ΟΔΟΣ.py"]⟩ [".txt", ".py"] (by decide) (by decide)]
    exact hliteral ".py" (by decide) (by decide) (by decide)
  · have hlost := hexact ".Σ" "x".toList (by decide)
    rw [Bool.eq_false_iff, ne_eq, hlost, not_not]
    exact ⟨by decide +kernel, [], by decide +kernel, rfl⟩

end LintHost.Target
