/-
The values of tagged scalars.

Each function reads the text of a scalar as its tag demands.  Underscores between digits carry no
meaning, a leading zero makes a number octal, and colons separate sexagesimal places.  Characters
outside the base-64 alphabet are passed over in binary data.
-/
import LintHost.Yaml.PlainTag
import LintHost.Yaml.Cursor
import LintHost.Value.Basic
import LintHost.Number.Shortest
import LintHost.Text.Lowercase

namespace LintHost.Yaml

open LintHost.Text

/-- A failure under a condition. -/
def orElse {α : Type} (e : Error) : Option α → Except Error α
  | some x => .ok x
  | none => .error e

/-- The text of a number without underscores, and whether it is negative. -/
def signed (s : List Char) : Except Error (Bool × List Char) :=
  match s.filter (· ≠ '_') with
  | [] => .error .emptyNumber
  | '-' :: rest => .ok (true, rest)
  | '+' :: rest => .ok (false, rest)
  | rest => .ok (false, rest)

/-- The value of sexagesimal places, the first the most significant. -/
def sexagesimal (places : List Int) : Int := places.foldl (fun n d => n * 60 + d) 0

/-- A whole number. -/
def intValue (s : List Char) : Except Error Value := do
  let (negative, body) ← signed s
  let n ← match body with
    | [] => .error .emptyNumber
    | ['0'] => .ok 0
    | '0' :: 'b' :: rest => orElse .badNumber (readInteger 2 rest)
    | '0' :: 'x' :: rest => orElse .badNumber (readInteger 16 rest)
    | '0' :: _ => orElse .badNumber (readInteger 8 body)
    | _ =>
      if body.contains ':' then do
        let places ← orElse .badNumber ((splitColons body).mapM (readInteger 10))
        .ok (sexagesimal places)
      else orElse .badNumber (readInteger 10 body)
  .ok (.int (if negative then -n else n))

/-- Adds up sexagesimal places, the least significant first; `base` is what a one at the next place
stands for, and a base beyond the greatest number fails whatever stands at its place. -/
def addSixtieths : Int → Binary64 → List Binary64 → Except Error Binary64
  | _, sum, [] => .ok sum
  | base, sum, d :: rest =>
    match Binary64.ofInt base with
    | .infinite _ => .error .hugePlace
    | factor => addSixtieths (base * 60) (sum.add (d.mul factor)) rest

/-- A floating-point number. The word for the not-a-number always means the same one, and any other
spelling means one of its own. -/
def floatValue (origin : Origin) (s : List Char) : Except Error Value := do
  let (negative, body) ← signed (lower s)
  let x ←
    if body = ".inf".toList then .ok (Binary64.infinite false)
    else if body = ".nan".toList then .ok Binary64.nan
    else if body.contains ':' then do
      let places ← orElse .badNumber ((splitColons body).mapM Binary64.read?)
      addSixtieths 1 (Binary64.zero false) places.reverse
    else orElse .badNumber (Binary64.read? body)
  match x with
  | .nan => .ok (if body = ".nan".toList then .float .nan else .undefined origin)
  | x => .ok (.float (if negative then x.neg else x))

/-- A truth value. -/
def boolValue (s : List Char) : Except Error Value :=
  let word := String.ofList (lower s)
  if ["yes", "true", "on"].contains word then .ok (.bool true)
  else if ["no", "false", "off"].contains word then .ok (.bool false)
  else .error .badWord

/-- The microseconds of a fraction of a second, digits beyond the sixth dropped. -/
def microseconds (fraction : List Char) : Nat :=
  let digits := fraction.take 6
  digitsValue (digits ++ List.replicate (6 - digits.length) '0')

/-- A day or a moment. -/
def momentValue (s : List Char) : Except Error Value := do
  let m ← orElse .badMoment (momentText (withoutFinalBreak s))
  let date ← orElse .badNumber (Date.make? m.year m.month m.day)
  match m.time with
  | none => .ok (.date date)
  | some (hour, minute, second) =>
    let t ← orElse .badNumber
      (Moment.make? date hour minute second (microseconds m.fraction) m.zone)
    .ok (.moment t)

/-- The six bits of a character of the base-64 alphabet. -/
def sixBits? (c : Char) : Option Nat :=
  let n := c.toNat
  if 65 ≤ n && n ≤ 90 then some (n - 65)
  else if 97 ≤ n && n ≤ 122 then some (n - 71)
  else if 48 ≤ n && n ≤ 57 then some (n + 4)
  else if c = '+' then some 62
  else if c = '/' then some 63
  else none

/-- Decodes base-64 text: `filled` counts the characters of the group so far, `left` holds their
bits that make up no byte yet, and `pads` counts the padding since the last character. -/
def decodeSixBits : Nat → Nat → Nat → List Char → Option (List UInt8)
  | filled, _, _, [] => if filled = 0 then some [] else none
  | filled, left, pads, c :: rest =>
    if c = '=' then
      if 2 ≤ filled && 4 ≤ filled + (pads + 1) then some []
      else decodeSixBits filled left (if 2 ≤ filled then pads + 1 else pads) rest
    else
      match sixBits? c with
      | none => decodeSixBits filled left pads rest
      | some d =>
        match filled with
        | 0 => decodeSixBits 1 d 0 rest
        | 1 => (UInt8.ofNat (left * 4 + d / 16) :: ·) <$> decodeSixBits 2 (d % 16) 0 rest
        | 2 => (UInt8.ofNat (left * 16 + d / 4) :: ·) <$> decodeSixBits 3 (d % 4) 0 rest
        | _ => (UInt8.ofNat (left * 64 + d) :: ·) <$> decodeSixBits 0 0 0 rest

/-- Binary data. -/
def binaryValue (s : List Char) : Except Error Value :=
  if s.all fun c => c.toNat < 0x80 then
    .bytes <$> orElse .malformed (decodeSixBits 0 0 0 s)
  else .error .malformed

end LintHost.Yaml
