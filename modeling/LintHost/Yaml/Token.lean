/-
A configuration text as tokens.

Indentation becomes tokens of its own: a collection of the block style opens where its first
entry or key stands further in than what is around it, and closes where a line stands further out.
Whether a scalar is a key is known only at the colon after it, so each flow level remembers where
its last possible key began; the colon then writes the key token back at that place.  A possible
key has to reach its colon on its own line and within 1024 characters.  Where the text breaks a rule
or stops the tokens end with that fault; a token that may still become a key is not settled by then.
-/
import LintHost.Text.Digit
import LintHost.Yaml.ScalarText
import LintHost.Yaml.Source

namespace LintHost.Yaml

/-- A piece of a configuration text. -/
inductive Token where
  | version (major : List Char)
  | tagPrefix (handle text : List Char)
  | directive
  | documentStart
  | documentEnd
  | finish
  | sequenceStart
  | mappingStart
  | blockEnd
  | openSequence
  | closeSequence
  | openMapping
  | closeMapping
  | comma
  | entry
  | key
  | value
  | alias (name : List Char)
  | anchor (name : List Char)
  | tag (handle : Option (List Char)) (suffix : List Char)
  | scalar (text : List Char) (plain : Bool)
  /-- The place where the text cannot be read any further. -/
  | fault (e : Error)
deriving DecidableEq, Repr

/-- A place where a key may have begun. -/
structure PossibleKey where
  /-- The number of tokens before it. -/
  place : Nat
  /-- Whether the text is malformed if it turns out to be no key. -/
  required : Bool
  index : Nat
  line : Nat
  column : Nat
deriving Repr

/-- The state between two tokens. -/
structure Lexer where
  cursor : Cursor
  /-- The column of the innermost block collection, and those of the ones around it. -/
  indent : Int
  outer : List Int
  /-- The number of open brackets. -/
  flow : Nat
  keyAllowed : Bool
  /-- The last possible key of each flow level. -/
  possible : List (Nat × PossibleKey)
  /-- The number of tokens so far, and the tokens, the latest first. -/
  count : Nat
  latest : List Token

namespace Lexer

def start (s : Source) : Lexer := ⟨Cursor.start s.text s.stop, -1, [], 0, true, [], 0, []⟩

def push (l : Lexer) (t : Token) : Lexer :=
  { l with count := l.count + 1, latest := t :: l.latest }

/-- Writes a token back at an earlier place. -/
def insertAt (l : Lexer) (place : Nat) (t : Token) : Lexer :=
  { l with count := l.count + 1, latest := l.latest.insertIdx (l.count - place) t }

/-- The tokens in their order. -/
def tokens (l : Lexer) : List Token := l.latest.reverse

def inFlow (l : Lexer) : Bool := l.flow != 0

def column (l : Lexer) : Int := l.cursor.column

/-- The longest way from the beginning of a key to its colon. -/
def maxKeyLength : Nat := 1024

/-- Whether a possible key is too far back. -/
def isStale (l : Lexer) (k : PossibleKey) : Bool :=
  k.line != l.cursor.line || l.cursor.index > k.index + maxKeyLength

/-- Forgets the possible keys that are too far back. -/
def expire (l : Lexer) : Except Error Lexer :=
  if l.possible.any fun k => l.isStale k.2 && k.2.required then .error .malformed
  else .ok { l with possible := l.possible.filter fun k => !l.isStale k.2 }

/-- The number of tokens in front of the first that may still become a key. -/
def settled (l : Lexer) : Nat :=
  (l.possible.filter fun k => !l.isStale k.2).foldl (fun n k => min n k.2.place) l.count

/-- Forgets the possible key of this flow level. -/
def dropKey (l : Lexer) : Except Error Lexer :=
  match l.possible.lookup l.flow with
  | some k =>
    if k.required then .error .malformed
    else .ok { l with possible := l.possible.filter fun k => k.1 != l.flow }
  | none => .ok l

/-- Remembers that a key may begin here. -/
def saveKey (l : Lexer) : Except Error Lexer :=
  if l.keyAllowed then do
    let required := !l.inFlow && l.indent == l.column
    let l ← l.dropKey
    let k : PossibleKey :=
      ⟨l.count, required, l.cursor.index, l.cursor.line, l.cursor.column⟩
    .ok { l with possible := (l.flow, k) :: l.possible }
  else .ok l

/-- How many block collections begin beyond a column, the indentation of the innermost of the
others, and those of the ones around it. -/
def closeTo (column : Int) : Int → List Int → Nat × Int × List Int
  | indent, [] => (0, indent, [])
  | indent, next :: outer =>
    if indent > column then
      let (n, indent, outer) := closeTo column next outer
      (n + 1, indent, outer)
    else (0, indent, next :: outer)

/-- Closes the block collections that do not reach this far out. -/
def unwind (column : Int) (l : Lexer) : Lexer :=
  if l.inFlow then l
  else
    let (n, indent, outer) := closeTo column l.indent l.outer
    { l with
      indent, outer, count := l.count + n, latest := List.replicate n .blockEnd ++ l.latest }

/-- Whether a block collection that begins at the column is a new one. -/
def opens (l : Lexer) (column : Int) : Bool := l.indent < column

/-- Makes the column that of the innermost block collection. -/
def deepen (l : Lexer) (column : Int) : Lexer :=
  { l with indent := column, outer := l.indent :: l.outer }

/-- Passes blanks, remarks and line ends between tokens. -/
def skipGap : Nat → Lexer → Lexer
  | 0, l => l
  | fuel + 1, l =>
    let c := l.cursor.skipSpaces
    let c := if c.peek = '#' then c.skipWhile (!isLineStop ·) else c
    match c.lineBreak with
    | (some _, c) =>
      skipGap fuel { l with cursor := c, keyAllowed := l.keyAllowed || !l.inFlow }
    | (none, c) => { l with cursor := c }

/-- A token of one character. -/
def pass (l : Lexer) (t : Token) : Lexer := { l.push t with cursor := l.cursor.step }

/-- The major number of a version directive. -/
def versionOf (c : Cursor) : Except Error (Token × Cursor) :=
  let (major, c) := c.skipSpaces.takeWhile Char.isDigit
  if major.length > Text.maxDecimalDigits then .error .badNumber
  else if major.isEmpty || c.peek ≠ '.' then .error .malformed
  else
    let (minor, c) := c.step.takeWhile Char.isDigit
    if minor.length > Text.maxDecimalDigits then .error .badNumber
    else if minor.isEmpty || !isSpaceStop c.peek then .error .malformed
    else .ok (.version (major.dropWhile (· = '0')), c)

/-- The handle of a tag directive and what it stands for. -/
def tagPrefixOf (c : Cursor) : Except Error (Token × Cursor) := do
  let (handle, c) ← tagHandle c.skipSpaces
  if c.peek ≠ ' ' then .error .malformed
  else
    let (text, c) ← tagText c.skipSpaces
    if isSpaceStop c.peek then .ok (.tagPrefix handle text, c) else .error .malformed

/-- A directive line. -/
def directive (l : Lexer) : Except Error Lexer := do
  let l := l.unwind (-1)
  let l ← l.dropKey
  let (name, c) ← nameText isSpaceStop l.cursor.step
  let (t, c) ←
    if name = "YAML".toList then versionOf c
    else if name = "TAG".toList then tagPrefixOf c
    else pure (.directive, c.skipWhile (!isLineStop ·))
  let c ← endOfLine c
  .ok { l.push t with cursor := c, keyAllowed := false }

/-- The marks between documents. -/
def documentMarker (l : Lexer) (t : Token) : Except Error Lexer := do
  let l := l.unwind (-1)
  let l ← l.dropKey
  .ok { l.push t with cursor := l.cursor.steps 3, keyAllowed := false }

def openBracket (l : Lexer) (t : Token) : Except Error Lexer := do
  let l ← l.saveKey
  .ok { l.pass t with flow := l.flow + 1, keyAllowed := true }

def closeBracket (l : Lexer) (t : Token) : Except Error Lexer := do
  let l ← l.dropKey
  if l.flow = 0 then .error .malformed
  else .ok { l.pass t with flow := l.flow - 1, keyAllowed := false }

def flowComma (l : Lexer) : Except Error Lexer := do
  let l ← l.dropKey
  .ok { l.pass .comma with keyAllowed := true }

/-- An indicator that may open a block collection where it stands. -/
def blockMark (l : Lexer) (opener : Token) : Except Error Lexer :=
  if l.inFlow then .ok l
  else if !l.keyAllowed then .error .malformed
  else if l.opens l.column then .ok ((l.deepen l.column).push opener)
  else .ok l

def blockEntry (l : Lexer) : Except Error Lexer := do
  let l ← l.blockMark .sequenceStart
  let l ← l.dropKey
  .ok { l.pass .entry with keyAllowed := true }

def explicitKey (l : Lexer) : Except Error Lexer := do
  let l ← l.blockMark .mappingStart
  let l ← l.dropKey
  .ok { l.pass .key with keyAllowed := !l.inFlow }

/-- The colon after a key. -/
def colon (l : Lexer) : Except Error Lexer :=
  match l.possible.lookup l.flow with
  | some k =>
    let l := { l with possible := l.possible.filter fun k => k.1 != l.flow }
    let l := l.insertAt k.place .key
    let l :=
      if !l.inFlow && l.opens k.column then (l.deepen k.column).insertAt k.place .mappingStart
      else l
    .ok { l.pass .value with keyAllowed := false }
  | none => do
    let l ← l.blockMark .mappingStart
    let l ← l.dropKey
    .ok { l.pass .value with keyAllowed := !l.inFlow }

/-- A token that may begin a key. -/
def keyed (l : Lexer) (read : Cursor → Except Error (Token × Cursor)) : Except Error Lexer := do
  let l ← l.saveKey
  let (t, c) ← read l.cursor
  .ok { l.push t with cursor := c, keyAllowed := false }

def anchorOf (make : List Char → Token) (c : Cursor) : Except Error (Token × Cursor) := do
  let (name, c) ← nameText endsAnchor c.step
  .ok (make name, c)

def blockScalar (l : Lexer) : Except Error Lexer := do
  let l ← l.dropKey
  let (text, c) ← blockText l.indent l.cursor
  .ok { l.push (.scalar text false) with cursor := c, keyAllowed := true }

def plainScalar (l : Lexer) : Except Error Lexer := do
  let l ← l.saveKey
  let (text, ended, c) := plainText l.inFlow l.indent l.cursor
  .ok { l.push (.scalar text true) with cursor := c, keyAllowed := ended }

/-- Reads the next token; `none` at the end of the text. -/
def next (l : Lexer) : Except Error (Option Lexer) := do
  let c := l.cursor
  let c := if c.index = 0 && c.peek = byteOrderMark then c.step else c
  let l := skipGap c.fuel { l with cursor := c }
  let l ← l.expire
  let l := l.unwind l.column
  let c := l.cursor
  let x := c.peek
  let alone := isStop (c.look 1)
  if x = ending then .ok none
  else if x = '%' && c.column = 0 then some <$> l.directive
  else if c.column = 0 && c.atMarker '-' then some <$> l.documentMarker .documentStart
  else if c.column = 0 && c.atMarker '.' then some <$> l.documentMarker .documentEnd
  else if x = '[' then some <$> l.openBracket .openSequence
  else if x = '{' then some <$> l.openBracket .openMapping
  else if x = ']' then some <$> l.closeBracket .closeSequence
  else if x = '}' then some <$> l.closeBracket .closeMapping
  else if x = ',' then some <$> l.flowComma
  else if x = '-' && alone then some <$> l.blockEntry
  else if x = '?' && (l.inFlow || alone) then some <$> l.explicitKey
  else if x = ':' && (l.inFlow || alone) then some <$> l.colon
  else if x = '*' then some <$> l.keyed (anchorOf .alias)
  else if x = '&' then some <$> l.keyed (anchorOf .anchor)
  else if x = '!' then
    some <$> l.keyed fun c => do
      let (handle, suffix, c) ← tagOf c
      .ok (.tag handle suffix, c)
  else if (x = '|' || x = '>') && !l.inFlow then some <$> l.blockScalar
  else if x = '\'' || x = '"' then
    some <$> l.keyed fun c => do
      let (text, c) ← quotedText c
      .ok (.scalar text false, c)
  else if startsPlain l.inFlow c then some <$> l.plainScalar
  else .error .malformed

/-- What closes the tokens at the end of the text. -/
def close (l : Lexer) : Except Error (List Token) := do
  let c := l.cursor
  let l := skipGap c.fuel
    { l with cursor := if c.index = 0 && c.peek = byteOrderMark then c.step else c }
  let l ← l.expire
  let l := l.unwind (-1)
  let l ← l.dropKey
  .ok (l.push .finish).tokens

/-- The tokens up to a fault. -/
def broken (l : Lexer) (e : Error) : List Token := l.tokens.take l.settled ++ [.fault e]

/-- Reads to the end of the text or to a fault. Each token takes at least one character, and one
that reaches the place where the text stops may go on behind it. -/
def run : Nat → Lexer → List Token
  | 0, l => l.broken .malformed
  | fuel + 1, l =>
    match l.next with
    | .ok (some more) =>
      match more.cursor.reachedStop with
      | some e => l.broken e
      | none => run fuel more
    | .ok none =>
      match l.cursor.stop, l.close with
      | some e, _ => l.broken e
      | none, .ok tokens => tokens
      | none, .error e => l.broken e
    | .error e => l.broken e

end Lexer

/-- The tokens of a text. -/
def Token.ofSource (s : Source) : List Token := (Lexer.start s).run (s.text.length + 2)

end LintHost.Yaml
