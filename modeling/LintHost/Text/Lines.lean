/-
Lines of a text.

Two notions of line meet in this library.  `lines` breaks at every line boundary Unicode knows:
LF, CR, CR LF as one, VT, FF, the separators FS, GS and RS, NEL, LS and PS; a final break opens
no empty line.  `unifyBreaks` is what reading a file does: CR LF and CR both become LF, and the
other boundaries stay as they are.  `joinLines` writes lines with a separator between them.
`not_break_of_mem_lines` says that no line holds a break.
-/

namespace LintHost.Text

/-- The characters that end a line. -/
def isBreak (c : Char) : Bool :=
  let n := c.toNat
  (0x0A ≤ n && n ≤ 0x0D) || (0x1C ≤ n && n ≤ 0x1E) || n == 0x85 || n == 0x2028 || n == 0x2029

/-- The lines of a text, without their breaks. -/
def lines : List Char → List (List Char)
  | [] => []
  | '\r' :: '\n' :: rest => [] :: lines rest
  | c :: rest =>
    if isBreak c then [] :: lines rest
    else
      match lines rest with
      | [] => [[c]]
      | l :: more => (c :: l) :: more

/-- The text with every line end written as a single LF. -/
def unifyBreaks : List Char → List Char
  | [] => []
  | '\r' :: '\n' :: rest => '\n' :: unifyBreaks rest
  | c :: rest => (if c = '\r' then '\n' else c) :: unifyBreaks rest

/-- Texts written one after the other with a separator between them. -/
def joinWith (sep : List Char) : List (List Char) → List Char
  | [] => []
  | [l] => l
  | l :: more => l ++ sep ++ joinWith sep more

/-- The text on one line: each break becomes a space, and a final break is dropped. -/
def oneLine (s : List Char) : List Char := joinWith [' '] (lines s)

/-- No line holds a break. -/
theorem not_break_of_mem_lines (s : List Char) :
    ∀ l ∈ lines s, ∀ c ∈ l, isBreak c = false := by
  fun_induction lines s with
  | case1 => simp
  | case2 rest ih => simpa using ih
  | case3 c rest _ _ ih => simpa using ih
  | case4 c rest _ hc hr ih => simpa using hc
  | case5 c rest _ hc l more hr ih =>
    rw [hr] at ih
    intro l' hl' d hd
    rcases List.mem_cons.1 hl' with rfl | h
    · rcases List.mem_cons.1 hd with rfl | h
      · simpa using hc
      · exact ih l (by simp) d h
    · exact ih l' (by simp [h]) d hd

/-- A text without a break is a single line. -/
theorem lines_of_no_break (s : List Char) (hne : s ≠ []) (h : ∀ c ∈ s, isBreak c = false) :
    lines s = [s] := by
  fun_induction lines s with
  | case1 => exact absurd rfl hne
  | case2 rest => exact absurd (h '\r' (by simp)) (by decide)
  | case3 c rest _ hc => simp [h c (by simp)] at hc
  | case4 c rest _ _ hr ih =>
    cases rest with
    | nil => rfl
    | cons d r => exact absurd (ih (by simp) fun x hx => h x (by simp [hx])) (by simp [hr])
  | case5 c rest _ _ l more hr ih =>
    cases rest with
    | nil => simp [lines] at hr
    | cons d r =>
      have := ih (by simp) fun x hx => h x (by simp [hx])
      rw [hr] at this
      simp_all

theorem unifyBreaks_no_return (s : List Char) : '\r' ∉ unifyBreaks s := by
  fun_induction unifyBreaks s with
  | case1 => simp
  | case2 rest ih => simp [ih]
  | case3 c rest _ ih =>
    intro h
    rcases List.mem_cons.1 h with h | h
    · split at h
      · exact absurd h (by decide)
      · rename_i hc; exact hc h.symm
    · exact ih h

end LintHost.Text
