/-
Writing lines and reading them back.

A text of lines with a single LF between them has those lines again, provided that no line is empty
and none holds a break: `lines_joinWith`.  The proviso is exact in both halves.  A line with a break
comes back as two, and an empty line at the end does not come back at all, since a final break opens
no line.  Splitting at LF alone only needs the lines to hold no LF, so on such lines the two notions
of line agree, `splitOn_joinWith`.

`oneLine` makes a field fit into a line: whatever breaks a text holds, it holds none of them
afterwards.
-/
import LintHost.Text.Lines
import LintHost.Proofs.Text.Digit

namespace LintHost.Text

/-- Holds no character that ends a line. -/
def BreakFree (s : List Char) : Prop := ∀ c ∈ s, isBreak c = false

instance (s : List Char) : Decidable (BreakFree s) := List.decidableBAll _ s

/-- Can stand as a line among others. -/
def IsLine (l : List Char) : Prop := l ≠ [] ∧ BreakFree l

/-! ### Texts without a break -/

theorem breakFree_nil : BreakFree [] := by
  intro c hc
  cases hc

theorem breakFree_cons {c : Char} {s : List Char} :
    BreakFree (c :: s) ↔ isBreak c = false ∧ BreakFree s :=
  List.forall_mem_cons

theorem breakFree_append {s t : List Char} :
    BreakFree (s ++ t) ↔ BreakFree s ∧ BreakFree t :=
  List.forall_mem_append

theorem BreakFree.append {s t : List Char} (hs : BreakFree s) (ht : BreakFree t) :
    BreakFree (s ++ t) :=
  breakFree_append.mpr ⟨hs, ht⟩

theorem BreakFree.no_feed {s : List Char} (h : BreakFree s) : '\n' ∉ s := by
  intro hmem
  exact absurd (h _ hmem) (by decide)

theorem breakFree_joinWith {sep : List Char} {ls : List (List Char)} (hsep : BreakFree sep)
    (hls : ∀ l ∈ ls, BreakFree l) : BreakFree (joinWith sep ls) := by
  fun_induction joinWith sep ls with
  | case1 => exact breakFree_nil
  | case2 l => exact hls l (by simp)
  | case3 l more hmore ih =>
    refine ((hls l (by simp)).append hsep).append (ih ?_)
    intro k hk
    exact hls k (by simp [hk])

/-- **A text on one line holds no break.** -/
theorem breakFree_oneLine (s : List Char) : BreakFree (oneLine s) :=
  breakFree_joinWith (by decide) (not_break_of_mem_lines s)

theorem isBreak_of_printable {c : Char} (hlow : 0x20 ≤ c.toNat) (hhigh : c.toNat ≤ 0x7E) :
    isBreak c = false := by
  rw [isBreak, Bool.eq_false_iff]
  intro h
  simp only [Bool.or_eq_true, Bool.and_eq_true, decide_eq_true_eq, beq_iff_eq] at h
  omega

theorem breakFree_decimal (n : Nat) : BreakFree (decimal n) := by
  intro c hc
  obtain ⟨hlow, hhigh⟩ := toNat_of_isDigit (isDigit_of_mem_decimal hc)
  exact isBreak_of_printable (by omega) (by omega)

/-! ### Lines read back -/

theorem lines_feed (s : List Char) : lines ('\n' :: s) = [] :: lines s := by
  rw [lines]
  · rfl
  · intro rest h
    exact absurd h (by decide)

/-- A character that ends no line stands at the front of the first line. -/
theorem lines_cons {c : Char} {s l : List Char} {more : List (List Char)}
    (hc : isBreak c = false) (hs : lines s = l :: more) : lines (c :: s) = (c :: l) :: more := by
  rw [lines, hs]
  · simp [hc]
  · rintro rest rfl
    exact absurd hc (by decide)

/-- The break behind a line ends it, and the lines of the rest follow. -/
theorem lines_append_feed {l : List Char} (hl : BreakFree l) (s : List Char) :
    lines (l ++ '\n' :: s) = l :: lines s := by
  induction l with
  | nil => exact lines_feed s
  | cons c l ih =>
    obtain ⟨hc, hl⟩ := breakFree_cons.mp hl
    exact lines_cons hc (ih hl)

/-- **Lines that are written with single breaks between them are read back.** -/
theorem lines_joinWith {ls : List (List Char)} (h : ∀ l ∈ ls, IsLine l) :
    lines (joinWith ['\n'] ls) = ls := by
  fun_induction joinWith ['\n'] ls with
  | case1 => rfl
  | case2 l =>
    obtain ⟨hne, hfree⟩ := h l (by simp)
    exact lines_of_no_break l hne hfree
  | case3 l more hmore ih =>
    rw [List.append_assoc]
    show lines (l ++ '\n' :: joinWith ['\n'] more) = _
    rw [lines_append_feed (h l (by simp)).2, ih]
    intro k hk
    exact h k (by simp [hk])

theorem joinWith_eq_intercalate (sep : List Char) (ls : List (List Char)) :
    joinWith sep ls = sep.intercalate ls := by
  fun_induction joinWith sep ls with
  | case1 => rfl
  | case2 l => simp [List.intercalate]
  | case3 l more hmore ih =>
    cases more with
    | nil => exact absurd rfl (hmore)
    | cons k more =>
      rw [ih]
      simp [List.intercalate, List.intersperse]

/-- Splitting at LF alone reads the lines back too, unless there are none. -/
theorem splitOn_joinWith {ls : List (List Char)} (hne : ls ≠ []) (h : ∀ l ∈ ls, BreakFree l) :
    (joinWith ['\n'] ls).splitOn '\n' = ls := by
  rw [joinWith_eq_intercalate]
  exact List.splitOn_intercalate '\n' (fun l hl => (h l hl).no_feed) hne

end LintHost.Text
