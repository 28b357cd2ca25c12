/-
Data written as text, over several lines or on one.

Over several lines, every item of a non-empty list and every field of a non-empty object stands on a
line of its own, two spaces further in than the bracket; on one line there are no blanks at all
between the parts.  Text between quotes uses the printable basic characters only: the quote, the
backslash and five control characters have short escapes, and all else is written by its UTF-16
units with four lowercase hexadecimal digits each.  Data with a whole number of more digits than are
written are not written at all, which `hasLongNumber` finds.
-/
import LintHost.Json.Basic
import LintHost.Number.Shortest

namespace LintHost.Json

open LintHost.Text

/-- A UTF-16 unit written by its number. -/
def escapedUnit (n : Nat) : List Char := '\\' :: 'u' :: hexadecimal 4 n

/-- A character as it stands between the quotes. -/
def escapedChar (c : Char) : List Char :=
  let n := c.toNat
  if c = '"' then ['\\', '"']
  else if c = '\\' then ['\\', '\\']
  else if c = '\n' then ['\\', 'n']
  else if c = '\r' then ['\\', 'r']
  else if c = '\t' then ['\\', 't']
  else if n = 0x08 then ['\\', 'b']
  else if n = 0x0C then ['\\', 'f']
  else if 0x20 ≤ n && n < 0x7F then [c]
  else if n < 0x10000 then escapedUnit n
  else
    escapedUnit (0xD800 + (n - 0x10000) / 0x400) ++ escapedUnit (0xDC00 + (n - 0x10000) % 0x400)

/-- A text in quotes. -/
def quote (s : String) : List Char := '"' :: s.toList.flatMap escapedChar ++ ['"']

/-- A floating-point number. -/
def floatText (x : Binary64) : List Char :=
  match x with
  | .nan => "NaN".toList
  | .infinite false => "Infinity".toList
  | .infinite true => "-Infinity".toList
  | x => x.display

/-- A new line, indented to a depth. -/
def newLine (depth : Nat) : List Char := '\n' :: List.replicate (2 * depth) ' '

mutual

/-- The text of a value whose brackets stand at a depth. -/
def writeAt (depth : Nat) : Json → List Char
  | .null => "null".toList
  | .bool true => "true".toList
  | .bool false => "false".toList
  | .int n => integer n
  | .float x => floatText x
  | .str s => quote s
  | .arr [] => ['[', ']']
  | .arr (x :: rest) =>
    '[' :: newLine (depth + 1) ++ writeAt (depth + 1) x ++ writeItems (depth + 1) rest
      ++ newLine depth ++ [']']
  | .obj [] => ['{', '}']
  | .obj ((k, x) :: rest) =>
    '{' :: newLine (depth + 1) ++ quote k ++ ':' :: ' ' :: writeAt (depth + 1) x
      ++ writeFields (depth + 1) rest ++ newLine depth ++ ['}']

/-- The items after the first, each behind a comma. -/
def writeItems (depth : Nat) : List Json → List Char
  | [] => []
  | x :: rest => ',' :: newLine depth ++ writeAt depth x ++ writeItems depth rest

/-- The fields after the first, each behind a comma. -/
def writeFields (depth : Nat) : List (String × Json) → List Char
  | [] => []
  | (k, x) :: rest =>
    ',' :: newLine depth ++ quote k ++ ':' :: ' ' :: writeAt depth x ++ writeFields depth rest

end

/-- The text of a value over several lines. -/
def write (j : Json) : List Char := writeAt 0 j

mutual

/-- The text of a value on one line. -/
def line : Json → List Char
  | .null => "null".toList
  | .bool true => "true".toList
  | .bool false => "false".toList
  | .int n => integer n
  | .float x => floatText x
  | .str s => quote s
  | .arr [] => ['[', ']']
  | .arr (x :: rest) => '[' :: line x ++ lineItems rest ++ [']']
  | .obj [] => ['{', '}']
  | .obj ((k, x) :: rest) => '{' :: quote k ++ ':' :: line x ++ lineFields rest ++ ['}']

/-- The items after the first on one line, each behind a comma. -/
def lineItems : List Json → List Char
  | [] => []
  | x :: rest => ',' :: line x ++ lineItems rest

/-- The fields after the first on one line, each behind a comma. -/
def lineFields : List (String × Json) → List Char
  | [] => []
  | (k, x) :: rest => ',' :: quote k ++ ':' :: line x ++ lineFields rest

end

/-! ### What keeps data from being written -/

section

variable (digits : Option Nat)

mutual

/-- Whether there is a whole number with more digits than are written. -/
def hasLongNumber : Json → Bool
  | .int n => hasMoreDigits digits n
  | .arr items => someHasLongNumber items
  | .obj fields => someFieldHasLongNumber fields
  | _ => false

def someHasLongNumber : List Json → Bool
  | [] => false
  | x :: rest => hasLongNumber x || someHasLongNumber rest

def someFieldHasLongNumber : List (String × Json) → Bool
  | [] => false
  | (_, x) :: rest => hasLongNumber x || someFieldHasLongNumber rest

end

end

end LintHost.Json
