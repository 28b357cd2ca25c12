/-
Decimal digits of every script, and whole numbers written with them.

`digitZeros` lists the code points of the digits zero; the other nine digits of a script follow
its zero.  `readInteger` reads a number in a given base: blanks around it, a sign, the base's own
mark after a leading zero, and single underscores between digits are allowed.
-/
import LintHost.Text.Blank

namespace LintHost.Text

/-- The zero of each script that has decimal digits. -/
def digitZeros : List Nat := [
   0x30, 0x660, 0x6F0, 0x7C0, 0x966, 0x9E6, 0xA66, 0xAE6, 0xB66, 0xBE6, 0xC66, 0xCE6, 0xD66,
   0xDE6, 0xE50, 0xED0, 0xF20, 0x1040, 0x1090, 0x17E0, 0x1810, 0x1946, 0x19D0, 0x1A80, 0x1A90,
   0x1B50, 0x1BB0, 0x1C40, 0x1C50, 0xA620, 0xA8D0, 0xA900, 0xA9D0, 0xA9F0, 0xAA50, 0xABF0,
   0xFF10, 0x104A0, 0x10D30, 0x11066, 0x110F0, 0x11136, 0x111D0, 0x112F0, 0x11450, 0x114D0,
   0x11650, 0x116C0, 0x11730, 0x118E0, 0x11950, 0x11C50, 0x11D50, 0x11DA0, 0x16A60, 0x16AC0,
   0x16B50, 0x1D7CE, 0x1D7D8, 0x1D7E2, 0x1D7EC, 0x1D7F6, 0x1E140, 0x1E2F0, 0x1E950, 0x1FBF0
]

/-- The value of a decimal digit of any script. -/
def decimalDigit? (c : Char) : Option Nat :=
  let n := c.toNat
  if n < 0x80 then (if c.isDigit then some (n - 48) else none)
  else (digitZeros.find? fun z => z ≤ n && n < z + 10).map (n - ·)

/-- The value of a digit or letter as a digit of a base up to 36. -/
def digitValue? (c : Char) : Option Nat :=
  match decimalDigit? c with
  | some d => some d
  | none =>
    let n := c.toNat
    if 97 ≤ n && n ≤ 122 then some (n - 87)
    else if 65 ≤ n && n ≤ 90 then some (n - 55)
    else none

/-- Reads digits of a base, single underscores between them; `acc` is the value so far. -/
def readDigits (base : Nat) (acc : Nat) : List Char → Option Nat
  | [] => some acc
  | '_' :: c :: rest =>
    match digitValue? c with
    | some d => if d < base then readDigits base (acc * base + d) rest else none
    | none => none
  | c :: rest =>
    match digitValue? c with
    | some d => if d < base then readDigits base (acc * base + d) rest else none
    | none => none

/-- Reads at least one digit of a base. -/
def readNatural (base : Nat) : List Char → Option Nat
  | [] => none
  | '_' :: _ => none
  | s => readDigits base 0 s

/-- The letters that mark a base after a leading zero. -/
def baseMarks : Nat → List Char
  | 2 => ['b', 'B']
  | 8 => ['o', 'O']
  | 16 => ['x', 'X']
  | _ => []

/-- The longest decimal number that is read: longer ones are refused for the time they take. -/
def maxDecimalDigits : Nat := 4300

/-- Reads a whole number without its sign. -/
def readMagnitude (base : Nat) (s : List Char) : Option Nat :=
  if base == 10 then
    if (s.filter (· ≠ '_')).length > maxDecimalDigits then none else readNatural 10 s
  else
    match s with
    | '0' :: m :: '_' :: rest =>
      if (baseMarks base).contains m then readNatural base rest else readNatural base s
    | '0' :: m :: rest =>
      if (baseMarks base).contains m then readNatural base rest else readNatural base s
    | _ => readNatural base s

/-- Reads a whole number in a base. -/
def readInteger (base : Nat) (s : List Char) : Option Int :=
  match trimNumber s with
  | '-' :: rest => (readMagnitude base rest).map fun n => -(n : Int)
  | '+' :: rest => (readMagnitude base rest).map Int.ofNat
  | rest => (readMagnitude base rest).map Int.ofNat

/-- The decimal digits of a number. -/
def decimal (n : Nat) : List Char := Nat.toDigits 10 n

/-- A whole number as it is written: digits, with a minus sign in front of a negative one. -/
def integer (n : Int) : List Char :=
  if n < 0 then '-' :: decimal n.natAbs else decimal n.natAbs

/-- Whether a number has more digits than are written; without a limit there are never too many. -/
def hasMoreDigits (limit : Option Nat) (n : Int) : Bool :=
  limit.any fun digits => decide (Nat.pow 10 digits ≤ n.natAbs)

/-- The number written with at least so many digits, zeros in front. -/
def padded (width n : Nat) : List Char :=
  let digits := decimal n
  List.replicate (width - digits.length) '0' ++ digits

/-- The lowercase hexadecimal digits of a number, at least so many. -/
def hexadecimal (width n : Nat) : List Char :=
  let digits := Nat.toDigits 16 n
  List.replicate (width - digits.length) '0' ++ digits

end LintHost.Text
