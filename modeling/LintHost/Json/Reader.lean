/-
Data read from text.

The reader takes the standard grammar: blanks are space, tab, LF and CR; a number with a fraction
or an exponent is a floating-point number and any other a whole number of any size; a pair of
surrogate escapes is one character; of two fields with one name the later value stands at the
earlier place.  Beyond the standard it takes the words that `floatText` writes for the infinities
and the not-a-number.  Each step of the reader consumes a character, so the length of the text
bounds the depth of the recursion.
-/
import LintHost.Json.Basic
import LintHost.Number.Shortest
import LintHost.Text.Half

namespace LintHost.Json

open LintHost.Text

/-- The blanks between the parts of a value. -/
def isGap (c : Char) : Bool := c = ' ' || c = '\n' || c = '\t' || c = '\r'

def skipGap (s : List Char) : List Char := s.dropWhile isGap

/-- The value of four hexadecimal digits. -/
def readUnit (a b c d : Char) : Option Nat := do
  let digit (x : Char) : Option Nat :=
    if x.isDigit then some (x.toNat - 48)
    else if 97 ≤ x.toNat && x.toNat ≤ 102 then some (x.toNat - 87)
    else if 65 ≤ x.toNat && x.toNat ≤ 70 then some (x.toNat - 55)
    else none
  some (((← digit a) * 16 + (← digit b)) * 256 + (← digit c) * 16 + (← digit d))

/-- The character of a one-letter escape. -/
def readEscape : Char → Option Char
  | '"' => some '"'
  | '\\' => some '\\'
  | '/' => some '/'
  | 'b' => some (Char.ofNat 0x08)
  | 'f' => some (Char.ofNat 0x0C)
  | 'n' => some '\n'
  | 'r' => some '\r'
  | 't' => some '\t'
  | _ => none

/-- Reads up to the closing quote: code points and UTF-16 units, and what follows the quote. -/
def readUnits : List Char → Option (List Nat × List Char)
  | [] => none
  | '"' :: rest => some ([], rest)
  | '\\' :: 'u' :: a :: b :: c :: d :: rest => do
    let n ← readUnit a b c d
    let (more, rest) ← readUnits rest
    some (n :: more, rest)
  | '\\' :: e :: rest => do
    let x ← readEscape e
    let (more, rest) ← readUnits rest
    some (x.toNat :: more, rest)
  | c :: rest =>
    if c.toNat < 0x20 || c = '\\' then none
    else do
      let (more, rest) ← readUnits rest
      some (c.toNat :: more, rest)

/-- Code points and UTF-16 units as text: a high unit and a low one are a single character. -/
def joinUnits : List Nat → List Char
  | [] => []
  | [n] => [ofNumber n]
  | n :: m :: rest =>
    if 0xD800 ≤ n && n < 0xDC00 && 0xDC00 ≤ m && m < 0xE000 then
      Char.ofNat (0x10000 + (n - 0xD800) * 0x400 + (m - 0xDC00)) :: joinUnits rest
    else ofNumber n :: joinUnits (m :: rest)

/-- Reads a text after its opening quote. -/
def readText (s : List Char) : Option (String × List Char) := do
  let (units, rest) ← readUnits s
  some (String.ofList (joinUnits units), rest)

/-- The digits at the front. -/
def spanDigits (s : List Char) : List Char × List Char :=
  (s.takeWhile Char.isDigit, s.dropWhile Char.isDigit)

/-- The value of decimal digits. -/
def digitsValue (s : List Char) : Nat := s.foldl (fun n c => n * 10 + (c.toNat - 48)) 0

/-- Reads a number. -/
def readNumber (s : List Char) : Option (Json × List Char) :=
  let (negative, body) := match s with
    | '-' :: rest => (true, rest)
    | rest => (false, rest)
  let (whole, rest) := spanDigits body
  if whole.isEmpty || (whole.length > 1 && whole.head? == some '0') then none
  else
    let (fraction, rest, pointed) := match rest with
      | '.' :: c :: more =>
        if c.isDigit then
          let (f, more) := spanDigits (c :: more)
          (f, more, true)
        else ([], rest, false)
      | _ => ([], rest, false)
    let (exponent, rest, scaled) : Int × List Char × Bool := match rest with
      | e :: more =>
        if e = 'e' || e = 'E' then
          let (down, digits) := match more with
            | '-' :: r => (true, r)
            | '+' :: r => (false, r)
            | r => (false, r)
          let (x, more) := spanDigits digits
          if x.isEmpty then (0, rest, false)
          else
            let n : Int := digitsValue x
            (if down then -n else n, more, true)
        else (0, rest, false)
      | [] => (0, rest, false)
    if pointed || scaled then
      some (.float (Binary64.ofDecimal negative (digitsValue (whole ++ fraction))
        (exponent - fraction.length)), rest)
    else
      let n : Int := digitsValue whole
      some (.int (if negative then -n else n), rest)

mutual

/-- Reads a value, and gives back what follows it. -/
def readValue : Nat → List Char → Option (Json × List Char)
  | 0, _ => none
  | fuel + 1, s =>
    match skipGap s with
    | 'n' :: 'u' :: 'l' :: 'l' :: rest => some (.null, rest)
    | 't' :: 'r' :: 'u' :: 'e' :: rest => some (.bool true, rest)
    | 'f' :: 'a' :: 'l' :: 's' :: 'e' :: rest => some (.bool false, rest)
    | 'N' :: 'a' :: 'N' :: rest => some (.float .nan, rest)
    | 'I' :: 'n' :: 'f' :: 'i' :: 'n' :: 'i' :: 't' :: 'y' :: rest =>
      some (.float (.infinite false), rest)
    | '-' :: 'I' :: 'n' :: 'f' :: 'i' :: 'n' :: 'i' :: 't' :: 'y' :: rest =>
      some (.float (.infinite true), rest)
    | '"' :: rest => do
      let (t, rest) ← readText rest
      some (.str t, rest)
    | '[' :: rest =>
      match skipGap rest with
      | ']' :: rest => some (.arr [], rest)
      | _ => do
        let (items, rest) ← readItems fuel rest
        some (.arr items, rest)
    | '{' :: rest =>
      match skipGap rest with
      | '}' :: rest => some (.obj [], rest)
      | _ => do
        let (fields, rest) ← readFields fuel [] rest
        some (.obj fields, rest)
    | rest => readNumber rest

/-- Reads the items of a list up to its closing bracket. -/
def readItems : Nat → List Char → Option (List Json × List Char)
  | 0, _ => none
  | fuel + 1, s => do
    let (x, rest) ← readValue fuel s
    match skipGap rest with
    | ',' :: rest =>
      let (more, rest) ← readItems fuel rest
      some (x :: more, rest)
    | ']' :: rest => some ([x], rest)
    | _ => none

/-- Reads the fields of an object up to its closing bracket, after those read before. -/
def readFields : Nat → List (String × Json) → List Char → Option (List (String × Json) × List Char)
  | 0, _, _ => none
  | fuel + 1, before, s =>
    match skipGap s with
    | '"' :: rest => do
      let (k, rest) ← readText rest
      match skipGap rest with
      | ':' :: rest =>
        let (x, rest) ← readValue fuel rest
        match skipGap rest with
        | ',' :: rest => readFields fuel (putField k x before) rest
        | '}' :: rest => some (putField k x before, rest)
        | _ => none
      | _ => none
    | _ => none

end

/-- Reads a text that holds one value and blanks around it. -/
def read? (s : List Char) : Option Json := do
  let (j, rest) ← readValue (s.length + 1) s
  if (skipGap rest).isEmpty then some j else none

end LintHost.Json
