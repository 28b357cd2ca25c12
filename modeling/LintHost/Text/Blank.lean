/-
White space, as names and numbers are trimmed of it.

`isBlank` is the class of characters with the Unicode White_Space property together with the
four information separators U+001C to U+001F.  Zero-width characters are not blank.  `strip`
takes the blank characters off both ends and leaves the text between them as it is:
`strip_of_trimmed` says that a text with no blank end is its own stripped form.  Numbers are
trimmed of White_Space alone, by `trimNumber`.
-/

namespace LintHost.Text

/-- The characters that count as white space at the ends of a text. -/
def isBlank (c : Char) : Bool :=
  let n := c.toNat
  (0x09 ≤ n && n ≤ 0x0D) || (0x1C ≤ n && n ≤ 0x20) || n == 0x85 || n == 0xA0 || n == 0x1680
    || (0x2000 ≤ n && n ≤ 0x200A) || n == 0x2028 || n == 0x2029 || n == 0x202F || n == 0x205F
    || n == 0x3000

/-- The white space trimmed off numbers: the blank characters without the information
separators. -/
def isNumberBlank (c : Char) : Bool := isBlank c && !(0x1C ≤ c.toNat && c.toNat ≤ 0x1F)

/-- The text without number blanks at its ends. -/
def trimNumber (s : List Char) : List Char :=
  ((s.dropWhile isNumberBlank).reverse.dropWhile isNumberBlank).reverse

/-- The text without its leading blank characters. -/
def stripLeft (s : List Char) : List Char := s.dropWhile isBlank

/-- The text without its trailing blank characters. -/
def stripRight (s : List Char) : List Char := (s.reverse.dropWhile isBlank).reverse

/-- The text without its leading and trailing blank characters. -/
def strip (s : List Char) : List Char := stripRight (stripLeft s)

theorem stripLeft_of_head {c : Char} (s : List Char) (h : isBlank c = false) :
    stripLeft (c :: s) = c :: s := by
  simp [stripLeft, h]

theorem stripRight_of_last {c : Char} (s : List Char) (h : isBlank c = false) :
    stripRight (s ++ [c]) = s ++ [c] := by
  simp [stripRight, h]

/-- A text whose ends are not blank is its own stripped form. -/
theorem strip_of_trimmed (s : List Char) (hh : ∀ c ∈ s.head?, isBlank c = false)
    (hl : ∀ c ∈ s.getLast?, isBlank c = false) : strip s = s := by
  cases s with
  | nil => rfl
  | cons c r =>
    have h1 : stripLeft (c :: r) = c :: r := stripLeft_of_head r (hh c (by simp))
    obtain ⟨front, last, hs⟩ : ∃ front last, c :: r = front ++ [last] :=
      ⟨_, _, (List.dropLast_concat_getLast (List.cons_ne_nil c r)).symm⟩
    have h2 : isBlank last = false := hl last (by simp [hs])
    rw [strip, h1, hs, stripRight_of_last front h2]

end LintHost.Text
