/-
Lines of a text, and places in it.

What the lines of a text are is said by `Splits` without a way to find them: each is free of breaks
and stands in front of one, and the last may stand at the end instead.

A place is an offset into the whole text.  Its line is counted by the line ends in front of it, and
its column by the characters since the last of them, both from one: `lineOf` and `columnOf`.  What
ends a line is up to the reader.  The lines of a text end at every character that Unicode takes for
a break; one who reads a file counts LF and nothing else.

`exists_place` says where the lines of a text stand in it: what is at an offset in the i-th line is
at a place of that line and column, if lines are counted by breaks.  Counted by LF the same place
may have another line or another column, and `lineOf_feed_eq_iff` and `columnOf_feed_eq_iff` say
when it has: where another break stands in front of it, for the line, and where one stands in front
of it behind the last LF, for the column.

Places are counted in the texts of files that were read.  These hold no CR, and without one every
break is a single character.
-/
import LintHost.Proofs.Text.Lines
import Mathlib.Data.List.TakeWhile

namespace LintHost.Text

/-! ### What the lines of a text are -/

/-- A break with what comes behind it: a CR in front of an LF is no break of its own. -/
inductive LineEnd : List Char → List Char → Prop
  | pair (rest : List Char) : LineEnd ['\r', '\n'] rest
  | single {c : Char} {rest : List Char} (hbreak : isBreak c = true)
      (halone : c = '\r' → rest.head? ≠ some '\n') : LineEnd [c] rest

/-- A text and its lines. -/
inductive Splits : List Char → List (List Char) → Prop
  | nil : Splits [] []
  | last {l : List Char} (hl : IsLine l) : Splits l [l]
  | cons {l ending rest : List Char} {ls : List (List Char)} (hfree : BreakFree l)
      (hend : LineEnd ending rest) (hrest : Splits rest ls) : Splits (l ++ ending ++ rest) (l :: ls)

/-- A character that ends no line comes to the first one. -/
theorem Splits.push {c : Char} {s l : List Char} {more : List (List Char)}
    (h : Splits s (l :: more)) (hc : isBreak c = false) : Splits (c :: s) ((c :: l) :: more) := by
  cases h with
  | last hl => exact .last ⟨List.cons_ne_nil c _, breakFree_cons.mpr ⟨hc, hl.2⟩⟩
  | cons hfree hend hrest => exact .cons (breakFree_cons.mpr ⟨hc, hfree⟩) hend hrest

theorem splits_lines (s : List Char) : Splits s (lines s) := by
  fun_induction lines s with
  | case1 => exact .nil
  | case2 rest ih => exact .cons breakFree_nil (.pair rest) ih
  | case3 c rest hpair hc ih =>
    refine .cons breakFree_nil (.single hc ?_) ih
    intro hreturn hfeed
    obtain ⟨tail, rfl⟩ := List.head?_eq_some_iff.mp hfeed
    exact hpair tail hreturn rfl
  | case4 c rest _ hc hnone ih =>
    rw [hnone] at ih
    cases ih
    exact .last ⟨List.cons_ne_nil c [], breakFree_cons.mpr ⟨by simpa using hc, breakFree_nil⟩⟩
  | case5 c rest _ hc l more hmore ih =>
    rw [hmore] at ih
    exact ih.push (by simpa using hc)

/-- A break at the front ends an empty line. -/
theorem LineEnd.lines {ending rest : List Char} (h : LineEnd ending rest) :
    lines (ending ++ rest) = [] :: lines rest := by
  cases h with
  | pair => rfl
  | @single c _ hbreak halone =>
    rw [List.singleton_append, Text.lines]
    · rw [if_pos hbreak]
    · rintro tail hreturn rfl
      exact halone hreturn rfl

/-! ### Places -/

/-- The line of a place, where `ends` tells what ends a line. -/
def lineOf (ends : Char → Bool) (s : List Char) (place : Nat) : Nat :=
  (s.take place).countP ends + 1

/-- What stands between the line end in front of a place and the place, backwards. -/
def behindEnd (ends : Char → Bool) (s : List Char) (place : Nat) : List Char :=
  (s.take place).reverse.takeWhile fun c => !ends c

/-- The column of a place. -/
def columnOf (ends : Char → Bool) (s : List Char) (place : Nat) : Nat :=
  (behindEnd ends s place).length + 1

/-- The line end of those who read files. -/
def isFeed (c : Char) : Bool := c == '\n'

/-! ### Where the lines of a text stand -/

/-- What stands in front of a line: all lines before it with their breaks. -/
structure InFront (s : List Char) (i : Nat) (line front : List Char) : Prop where
  stands : front ++ line <+: s
  breaks : front.countP isBreak = i
  ended : ∀ c ∈ front.getLast?, isBreak c = true

theorem InFront.nil {s line : List Char} (h : line <+: s) : InFront s 0 line [] :=
  ⟨h, rfl, by simp⟩

/-- A line that stands first of all has nothing in front of it. -/
theorem InFront.eq_nil {s line front : List Char} (h : InFront s 0 line front) : front = [] := by
  rcases List.eq_nil_or_concat front with rfl | ⟨start, c, rfl⟩
  · rfl
  · have hc := h.ended c (by simp)
    have hnone := List.countP_eq_zero.mp h.breaks c (by simp)
    exact absurd hc hnone

/-- A character more in front of everything. -/
theorem InFront.cons {s line front : List Char} {i : Nat} (h : InFront s i line front) (c : Char)
    (hc : front = [] → isBreak c = true) :
    InFront (c :: s) (i + if isBreak c then 1 else 0) line (c :: front) := by
  refine ⟨?_, ?_, ?_⟩
  · rw [List.cons_append, List.cons_prefix_cons]
    exact ⟨rfl, h.stands⟩
  · rw [List.countP_cons, h.breaks]
  · cases front with
    | nil => simpa using hc
    | cons d front =>
      rw [List.getLast?_cons_cons]
      exact h.ended

/-- **Every line of a text stands in it, behind as many breaks as there are lines before it.** -/
theorem exists_inFront {s line : List Char} {i : Nat} (hreturn : '\r' ∉ s)
    (h : (lines s)[i]? = some line) : ∃ front, InFront s i line front := by
  fun_induction lines s generalizing i line with
  | case1 => cases h
  | case2 rest => exact absurd List.mem_cons_self hreturn
  | case3 c rest _ hc ih =>
    cases i with
    | zero => exact ⟨[], Option.some.inj h ▸ .nil (List.nil_prefix)⟩
    | succ i =>
      obtain ⟨front, hfront⟩ := ih (fun hmem => hreturn (List.mem_cons_of_mem c hmem)) h
      exact ⟨c :: front, by simpa [hc] using hfront.cons c fun _ => hc⟩
  | case4 c rest _ hc hnone ih =>
    cases i with
    | zero =>
      obtain rfl : [c] = line := by simpa using h
      exact ⟨[], .nil (List.prefix_append [c] rest)⟩
    | succ i => simp at h
  | case5 c rest _ hc l more hmore ih =>
    rw [hmore] at ih
    have hrest : '\r' ∉ rest := fun hmem => hreturn (List.mem_cons_of_mem c hmem)
    cases i with
    | zero =>
      obtain rfl : c :: l = line := by simpa using h
      obtain ⟨front, hfront⟩ := ih hrest (i := 0) rfl
      refine ⟨[], .nil ?_⟩
      have hstands := hfront.stands
      rw [hfront.eq_nil] at hstands
      exact List.cons_prefix_cons.mpr ⟨rfl, hstands⟩
    | succ i =>
      obtain ⟨front, hfront⟩ := ih hrest (i := i + 1) h
      have hfirst : front = [] → isBreak c = true := by
        rintro rfl
        cases hfront.breaks
      exact ⟨c :: front, by simpa [hc] using hfront.cons c hfirst⟩

/-- **What is at an offset in a line is at a place of that line, in the column of that offset.** -/
theorem exists_place {s line : List Char} {i k : Nat} (hreturn : '\r' ∉ s)
    (h : (lines s)[i]? = some line) (hk : k ≤ line.length) :
    ∃ place, line.drop k <+: s.drop place ∧ lineOf isBreak s place = i + 1 ∧
      columnOf isBreak s place = k + 1 := by
  obtain ⟨front, hfront⟩ := exists_inFront hreturn h
  have hfree : BreakFree line := not_break_of_mem_lines s line (List.mem_of_getElem? h)
  obtain ⟨tail, rfl⟩ := hfront.stands
  have htake : (front ++ line ++ tail).take (front.length + k) = front ++ line.take k := by
    rw [List.append_assoc, List.take_length_add_append, List.take_append_of_le_length hk]
  have hdrop : (front ++ line ++ tail).drop (front.length + k) = line.drop k ++ tail := by
    rw [List.append_assoc, List.drop_length_add_append, List.drop_append_of_le_length hk]
  refine ⟨front.length + k, hdrop ▸ List.prefix_append _ _, ?_, ?_⟩
  · rw [lineOf, htake, List.countP_append, hfront.breaks]
    have hnone : (line.take k).countP isBreak = 0 :=
      List.countP_eq_zero.mpr fun c hc => by simp [hfree c (List.mem_of_mem_take hc)]
    rw [hnone, Nat.add_zero]
  · have hall : ∀ c ∈ (line.take k).reverse, (!isBreak c) = true := fun c hc => by
      simp [hfree c (List.mem_of_mem_take (List.mem_reverse.mp hc))]
    have hstop : front.reverse.takeWhile (fun c => !isBreak c) = [] := by
      cases hback : front.reverse with
      | nil => rfl
      | cons c back =>
        have hc : isBreak c = true :=
          hfront.ended c (by rw [← List.head?_reverse, hback]; rfl)
        rw [List.takeWhile_cons_of_neg (by simp [hc])]
    rw [columnOf, behindEnd, htake, List.reverse_append, List.takeWhile_append_of_pos hall, hstop]
    simp [hk]

/-! ### Lines that end at LF -/

theorem isBreak_of_isFeed {c : Char} (h : isFeed c = true) : isBreak c = true := by
  rw [eq_of_beq h]
  rfl

/-- The places with the same line for both readers. -/
theorem lineOf_feed_eq_iff {s : List Char} {place : Nat} :
    lineOf isFeed s place = lineOf isBreak s place ↔
      ∀ c ∈ s.take place, isBreak c = true → c = '\n' := by
  rw [lineOf, lineOf, Nat.add_right_cancel_iff]
  induction s.take place with
  | nil => simp
  | cons c rest ih =>
    have hle : rest.countP isFeed ≤ rest.countP isBreak :=
      List.countP_mono_left fun d _ => isBreak_of_isFeed
    rw [List.countP_cons, List.countP_cons, List.forall_mem_cons, ← ih]
    by_cases hbreak : isBreak c = true
    · by_cases hfeed : isFeed c = true
      · rw [if_pos hfeed, if_pos hbreak, Nat.add_right_cancel_iff]
        exact (and_iff_right fun _ => eq_of_beq hfeed).symm
      · have hne : c ≠ '\n' := fun hc => hfeed (beq_iff_eq.mpr hc)
        simp only [hbreak, hfeed, if_true, hne, imp_false, not_true, false_and, iff_false]
        simp
        omega
    · have hfeed : isFeed c = false := by
        rw [Bool.eq_false_iff]
        exact fun hfeed => hbreak (isBreak_of_isFeed hfeed)
      simp [hbreak, hfeed]

/-- The places with the same column for both readers. -/
theorem columnOf_feed_eq_iff {s : List Char} {place : Nat} :
    columnOf isFeed s place = columnOf isBreak s place ↔ BreakFree (behindEnd isFeed s place) := by
  have hinner : behindEnd isBreak s place =
      (behindEnd isFeed s place).takeWhile fun c => !isBreak c := by
    rw [behindEnd, behindEnd, List.takeWhile_takeWhile]
    congr 1
    funext c
    by_cases hfeed : isFeed c = true
    · simp [hfeed, isBreak_of_isFeed hfeed]
    · simp [hfeed]
  rw [columnOf, columnOf, hinner, Nat.add_right_cancel_iff]
  constructor
  · intro hlength c hc
    have hall := (List.takeWhile_prefix fun c => !isBreak c).eq_of_length hlength.symm
    simpa using List.takeWhile_eq_self_iff.mp hall c hc
  · intro hfree
    rw [List.takeWhile_eq_self_iff.mpr fun c hc => by simp [hfree c hc]]

end LintHost.Text
