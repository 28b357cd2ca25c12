/-
Decimal text of floating-point numbers: the fewest digits that read back.

`ofDecimal` reads `digits * 10 ^ exponent` to the nearest number.  `shortest` tries one digit,
then two, up to seventeen: on the grid of decimals with that many digits the two neighbours of
the number are read back, and the first grid where one of them is the number itself decides, the
nearer one winning.  `display` lays the digits out: positionally from 10^-4 up to below 10^16,
always with a point, and with a signed exponent of at least two digits elsewhere.
-/
import LintHost.Number.Binary64
import LintHost.Text.Digit

namespace LintHost.Binary64

open LintHost.Text

/-- A power of ten. -/
def tenTo (n : Nat) : Nat := Nat.pow 10 n

/-- The number nearest to `± digits * 10 ^ exponent`. -/
def ofDecimal (negative : Bool) (digits : Nat) (exponent : Int) : Binary64 :=
  if digits = 0 then zero negative
  else
    let size : Int := (decimal digits).length + exponent
    if size > 310 then .infinite negative
    else if size < -330 then zero negative
    else if exponent < 0 then ofRatio negative digits (tenTo exponent.natAbs)
    else ofRatio negative (digits * tenTo exponent.natAbs) 1

/-- A positive number as a quotient of whole numbers. -/
def ratio (m : Nat) (e : Int) : Nat × Nat :=
  if e < 0 then (m, twoTo e.natAbs) else (m * twoTo e.natAbs, 1)

/-- The power of ten that the quotient reaches: the largest `k` with `10 ^ k ≤ num / den`,
looked for upwards from a guess below it. -/
def decimalTop (num den : Nat) : Nat → Int → Int
  | 0, k => k
  | fuel + 1, k =>
    let next := k + 1
    let reached :=
      if next < 0 then den ≤ num * tenTo next.natAbs else den * tenTo next.natAbs ≤ num
    if reached then decimalTop num den fuel next else k

/-- The neighbours of the quotient on the grid of multiples of `10 ^ e`, the nearer first. -/
def neighbours (num den : Nat) (e : Int) : List Nat :=
  let (a, b) := if e < 0 then (num * tenTo e.natAbs, den) else (num, den * tenTo e.natAbs)
  let q := a / b
  let r := a % b
  if 2 * r < b || (2 * r == b && q % 2 == 0) then [q, q + 1] else [q + 1, q]

/-- Looks for digits that read back among the grids of `count`, `count + 1`, … digits. -/
def search (m : Nat) (e : Int) (num den : Nat) (top : Int) : Nat → Nat → Nat × Int
  | 0, count =>
    let grid := top - count + 1
    ((neighbours num den grid).headD 0, grid)
  | fuel + 1, count =>
    let grid := top - count + 1
    match (neighbours num den grid).find? fun d => ofDecimal false d grid == .finite false m e with
    | some d => (d, grid)
    | none => search m e num den top fuel (count + 1)

/-- The fewest digits that read back as the positive number, and their power of ten. -/
def shortest (m : Nat) (e : Int) : Nat × Int :=
  let (num, den) := ratio m e
  let guess : Int := ((m.log2 : Int) + e) * 30103 / 100000 - 2
  let top := decimalTop num den 6 guess
  search m e num den top 16 1

/-- The digits without trailing zeros, and the power of ten of the last of them. -/
def trimZeros : Nat → Nat → Int → Nat × Int
  | 0, d, e => (d, e)
  | fuel + 1, d, e =>
    if d ≠ 0 && d % 10 == 0 then trimZeros fuel (d / 10) (e + 1) else (d, e)

/-- The exponents that are written positionally. -/
def positionalFrom : Int := -4
def positionalBelow : Int := 16

/-- The digits of a positive number laid out as text. -/
def layout (d : Nat) (e : Int) : List Char :=
  let digits := decimal d
  let top := e + digits.length - 1
  if positionalFrom ≤ top && top < positionalBelow then
    if e ≥ 0 then digits ++ List.replicate e.natAbs '0' ++ ['.', '0']
    else if top ≥ 0 then
      digits.take (top.natAbs + 1) ++ '.' :: digits.drop (top.natAbs + 1)
    else '0' :: '.' :: List.replicate (top.natAbs - 1) '0' ++ digits
  else
    let fraction := if digits.length > 1 then '.' :: digits.drop 1 else []
    digits.take 1 ++ fraction ++ 'e' :: (if top < 0 then '-' else '+') :: padded 2 top.natAbs

/-- The text of a number. -/
def display : Binary64 → List Char
  | .nan => ['n', 'a', 'n']
  | .infinite false => ['i', 'n', 'f']
  | .infinite true => ['-', 'i', 'n', 'f']
  | .finite s m e =>
    let body :=
      if m = 0 then ['0', '.', '0']
      else
        let (d, e10) := shortest m e
        let (d, e10) := trimZeros 20 d e10
        layout d e10
    if s then '-' :: body else body

/-- Reads digits with single underscores between them: their value and their number. -/
def readRun (value count : Nat) : List Char → Nat × Nat × List Char
  | '_' :: c :: rest =>
    match decimalDigit? c with
    | some d => if count = 0 then (value, count, '_' :: c :: rest)
                else readRun (value * 10 + d) (count + 1) rest
    | none => (value, count, '_' :: c :: rest)
  | c :: rest =>
    match decimalDigit? c with
    | some d => readRun (value * 10 + d) (count + 1) rest
    | none => (value, count, c :: rest)
  | [] => (value, count, [])

/-- Reads an optional exponent that ends the text. -/
def readExponent : List Char → Option Int
  | [] => some 0
  | c :: rest =>
    if c = 'e' || c = 'E' then
      let (negative, body) :=
        match rest with
        | '-' :: r => (true, r)
        | '+' :: r => (false, r)
        | r => (false, r)
      match readRun 0 0 body with
      | (n, count, []) =>
        if count = 0 then none else some (if negative then -(n : Int) else (n : Int))
      | _ => none
    else none

/-- Reads a number without its sign. -/
def readUnsigned (negative : Bool) (s : List Char) : Option Binary64 :=
  let word := s.map Char.toLower
  if word == "inf".toList || word == "infinity".toList then some (.infinite negative)
  else if word == "nan".toList then some .nan
  else
    let (whole, count, rest) := readRun 0 0 s
    let (digits, places, rest) :=
      match rest with
      | '.' :: tail =>
        match tail with
        | '_' :: _ => (whole, 0, tail)
        | _ =>
          let (v, n, r) := readRun 0 0 tail
          (whole * tenTo n + v, n, r)
      | r => (whole, 0, r)
    if count + places = 0 then none
    else (readExponent rest).map fun e => ofDecimal negative digits (e - places)

/-- Reads a decimal number: blanks around it, a sign, a fraction and an exponent are allowed. -/
def read? (s : List Char) : Option Binary64 :=
  match trimNumber s with
  | '-' :: rest => readUnsigned true rest
  | '+' :: rest => readUnsigned false rest
  | rest => readUnsigned false rest

end LintHost.Binary64
