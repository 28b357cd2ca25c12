/-
A place in a configuration text.

A cursor knows what is left of the text and how far it has come: in characters, in lines, and in
characters since the last line end.  Beyond the end it reads the character U+0000, which no text
holds that passes `isText`; where the text only stops there, it also knows what is wrong behind it.
`fuel` bounds the steps that can still be made.
-/

namespace LintHost.Yaml

/-- Why a configuration text has no value. -/
inductive Error where
  /-- The text breaks a rule of the notation, or a tag or alias has no meaning. -/
  | malformed
  /-- A number, a day or a character is written as none exists. -/
  | badNumber
  /-- A character is written by a number that is too great to be looked at. -/
  | hugeCharacter
  /-- A place of a floating-point number stands for more than the greatest of them. -/
  | hugePlace
  /-- A number is tagged as one and has no characters. -/
  | emptyNumber
  /-- A truth value is tagged as one and is no word for it. -/
  | badWord
  /-- A moment is tagged as one and is not written like one. -/
  | badMoment
  /-- A moment is tagged as one and is a mapping with the text in it. -/
  | nestedMoment
  /-- Collections stand too deep inside each other. -/
  | tooDeep
  /-- The file is no text. -/
  | undecodable
deriving DecidableEq, Repr

/-- The characters a configuration text may hold. -/
def isText (c : Char) : Bool :=
  let n := c.toNat
  n == 0x09 || n == 0x0A || n == 0x0D || (0x20 ≤ n && n ≤ 0x7E) || n == 0x85
    || (0xA0 ≤ n && n ≤ 0xD7FF) || (0xE000 ≤ n && n ≤ 0xFFFD) || 0x10000 ≤ n

/-- What is read beyond the end. -/
def ending : Char := Char.ofNat 0

/-- The mark that may stand at the very front of a text. -/
def byteOrderMark : Char := Char.ofNat 0xFEFF

/-- The characters that end a line. -/
def isLineEnd (c : Char) : Bool :=
  c = '\n' || c = '\r' || c.toNat == 0x85 || c.toNat == 0x2028 || c.toNat == 0x2029

/-- The end of a line or of the text. -/
def isLineStop (c : Char) : Bool := c = ending || isLineEnd c

/-- What may follow an indicator that stands on its own, tabs apart. -/
def isSpaceStop (c : Char) : Bool := c = ' ' || isLineStop c

/-- What may follow an indicator that stands on its own. -/
def isStop (c : Char) : Bool := c = '\t' || isSpaceStop c

structure Cursor where
  rest : List Char
  index : Nat
  line : Nat
  column : Nat
  /-- The length of the whole text. -/
  total : Nat
  /-- What is wrong behind the end, if the text only stops there. -/
  stop : Option Error
deriving Repr

namespace Cursor

/-- The front of a text. -/
def start (s : List Char) (stop : Option Error) : Cursor := ⟨s, 0, 0, 0, s.length, stop⟩

/-- A bound on the steps to the end of the text. -/
def fuel (c : Cursor) : Nat := c.total + 1

/-- The character some places ahead. -/
def look (c : Cursor) (k : Nat) : Char := c.rest.getD k ending

/-- The next character. -/
def peek (c : Cursor) : Char := c.look 0

/-- Passes one character. -/
def step (c : Cursor) : Cursor :=
  match c.rest with
  | [] => c
  | x :: rest =>
    if isLineEnd x then
      { c with rest := rest, index := c.index + 1, line := c.line + 1, column := 0 }
    else
      { c with
        rest := rest
        index := c.index + 1
        column := if x = byteOrderMark then c.column else c.column + 1 }

/-- What is wrong where something goes on beyond the end. -/
def endFault (c : Cursor) : Error := c.stop.getD .malformed

/-- What is wrong where the text has stopped. -/
def reachedStop (c : Cursor) : Option Error := if c.rest.isEmpty then c.stop else none

/-- Passes some characters. -/
def steps (c : Cursor) : Nat → Cursor
  | 0 => c
  | n + 1 => c.step.steps n

/-- Passes the characters of a class and gives them back. -/
def takeWhile (c : Cursor) (p : Char → Bool) : List Char × Cursor :=
  let run := c.rest.takeWhile p
  (run, c.steps run.length)

/-- Passes the characters of a class. -/
def skipWhile (c : Cursor) (p : Char → Bool) : Cursor := (c.takeWhile p).2

def skipSpaces (c : Cursor) : Cursor := c.skipWhile (· = ' ')

/-- Passes the end of a line, if the cursor stands at one, and gives it back as it is kept. -/
def lineBreak (c : Cursor) : Option Char × Cursor :=
  let x := c.peek
  if x = '\r' && c.look 1 = '\n' then (some '\n', c.steps 2)
  else if x = '\n' || x = '\r' || x.toNat == 0x85 then (some '\n', c.step)
  else if isLineEnd x then (some x, c.step)
  else (none, c)

/-- Whether three dashes or three points stand here on their own. -/
def atMarker (c : Cursor) (x : Char) : Bool :=
  c.look 0 = x && c.look 1 = x && c.look 2 = x && isStop (c.look 3)

/-- Whether a document starts or ends here. -/
def atDocumentMarker (c : Cursor) : Bool := c.atMarker '-' || c.atMarker '.'

end Cursor

end LintHost.Yaml
