/-
Halves of characters.

A UTF-16 unit from U+D800 to U+DFFF is half of a character, and no text holds it on its own; but an
escape may write one.  It is kept as a stand-in, the character of the same number in a plane where
no characters are assigned.  So the characters from U+DD800 to U+DDFFF cannot be told from halves,
and what is said of texts without halves is said of texts without those characters.  `joinHalves`
makes one character of two halves that belong together, as a reader of UTF-16 does, and
`escapeHalves` writes every half as an escape.
-/
import LintHost.Text.Digit

namespace LintHost.Text

/-- The first number of the plane of the stand-ins. -/
def halfPlane : Nat := 0xD0000

/-- Whether a number is that of a half. -/
def isHalf (n : Nat) : Bool := 0xD800 ≤ n && n ≤ 0xDFFF

/-- The character of a number, or the stand-in for the half of that number. -/
def ofNumber (n : Nat) : Char := if isHalf n then Char.ofNat (halfPlane + n) else Char.ofNat n

/-- The number of the half that a character stands for. -/
def half? (c : Char) : Option Nat :=
  if halfPlane ≤ c.toNat && isHalf (c.toNat - halfPlane) then some (c.toNat - halfPlane) else none

/-- Whether a text holds a half. -/
def holdsHalf (s : List Char) : Bool := s.any fun c => (half? c).isSome

/-- The character of two halves, if they belong together. -/
def whole? (high low : Char) : Option Char :=
  match half? high, half? low with
  | some h, some l =>
    if h < 0xDC00 && 0xDC00 ≤ l then
      some (Char.ofNat (0x10000 + (h - 0xD800) * 0x400 + (l - 0xDC00)))
    else none
  | _, _ => none

/-- The text with halves that belong together made whole. -/
def joinHalves : List Char → List Char
  | [] => []
  | [c] => [c]
  | c :: d :: rest =>
    match whole? c d with
    | some x => x :: joinHalves rest
    | none => c :: joinHalves (d :: rest)

/-- The text with escapes for its halves. -/
def escapeHalves (s : List Char) : List Char :=
  s.flatMap fun c =>
    match half? c with
    | some n => '\\' :: 'u' :: hexadecimal 4 n
    | none => [c]

end LintHost.Text
