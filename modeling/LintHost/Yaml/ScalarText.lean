/-
The text of a scalar, in each of the styles it may be written in.

A plain scalar goes on over lines that are indented enough; a quoted one goes on to its quote; a
block scalar takes the lines indented beyond its parent.  In the first two a single line end reads
as a space and further ones stand for themselves.  Every loop here passes at least one character
of the text in a round, so that the length of what is left bounds the rounds.
-/
import LintHost.Yaml.Cursor
import LintHost.Text.Half
import LintHost.Text.Utf8

namespace LintHost.Yaml

open LintHost.Text

/-! ### Quoted scalars -/

/-- Passes empty lines inside a quoted scalar and gives back their ends. -/
def quotedBreaks : Nat → Cursor → Except Error (List Char × Cursor)
  | 0, c => .ok ([], c)
  | fuel + 1, c =>
    if c.atDocumentMarker then .error .malformed
    else
      let c := c.skipWhile fun x => x = ' ' || x = '\t'
      match c.lineBreak with
      | (some b, c) => do
        let (more, c) ← quotedBreaks fuel c
        .ok (b :: more, c)
      | (none, c) => .ok ([], c)

/-- The blanks inside a quoted scalar, as they read. -/
def quotedSpaces (c : Cursor) : Except Error (List Char × Cursor) :=
  let (blanks, c) := c.takeWhile fun x => x = ' ' || x = '\t'
  if c.peek = ending then .error c.endFault
  else
    match c.lineBreak with
    | (some b, c) => do
      let (breaks, c) ← quotedBreaks c.fuel c
      let first := if b ≠ '\n' then [b] else if breaks.isEmpty then [' '] else []
      .ok (first ++ breaks, c)
    | (none, c) => .ok (blanks, c)

/-- The character a one-letter escape stands for. -/
def escapeOf (c : Char) : Option Char :=
  match c with
  | '0' => some (Char.ofNat 0x00)
  | 'a' => some (Char.ofNat 0x07)
  | 'b' => some (Char.ofNat 0x08)
  | 't' => some '\t'
  | '\t' => some '\t'
  | 'n' => some '\n'
  | 'v' => some (Char.ofNat 0x0B)
  | 'f' => some (Char.ofNat 0x0C)
  | 'r' => some '\r'
  | 'e' => some (Char.ofNat 0x1B)
  | ' ' => some ' '
  | '"' => some '"'
  | '\\' => some '\\'
  | '/' => some '/'
  | 'N' => some (Char.ofNat 0x85)
  | '_' => some (Char.ofNat 0xA0)
  | 'L' => some (Char.ofNat 0x2028)
  | 'P' => some (Char.ofNat 0x2029)
  | _ => none

/-- The number of hexadecimal digits that a numeric escape takes. -/
def escapeWidth (c : Char) : Option Nat :=
  match c with
  | 'x' => some 2
  | 'u' => some 4
  | 'U' => some 8
  | _ => none

/-- The value of a hexadecimal digit. -/
def hexDigit? (c : Char) : Option Nat :=
  let n := c.toNat
  if 48 ≤ n && n ≤ 57 then some (n - 48)
  else if 97 ≤ n && n ≤ 102 then some (n - 87)
  else if 65 ≤ n && n ≤ 70 then some (n - 55)
  else none

/-- The value of hexadecimal digits. -/
def hexValue? (s : List Char) : Option Nat := do
  let digits ← s.mapM hexDigit?
  some (digits.foldl (fun n d => n * 16 + d) 0)

/-- The character or the half with a number. -/
def charOf (n : Nat) : Except Error Char :=
  if n < 0x110000 then .ok (ofNumber n)
  else if n < 0x80000000 then .error .badNumber
  else .error .hugeCharacter

/-- An escape after its backslash. -/
def escape (c : Cursor) : Except Error (List Char × Cursor) :=
  match escapeOf c.peek with
  | some x => .ok ([x], c.step)
  | none =>
    match escapeWidth c.peek with
    | some width =>
      let c := c.step
      let digits := c.rest.take width
      if digits.length < width then .error .malformed
      else
        match hexValue? digits with
        | some n => (fun x => ([x], c.steps width)) <$> charOf n
        | none => .error .malformed
    | none =>
      match c.lineBreak with
      | (some _, c) => quotedBreaks c.fuel c
      | (none, _) => .error .malformed

/-- The characters that end a run of ordinary ones inside quotes. -/
def endsQuotedRun (c : Char) : Bool := c = '\'' || c = '"' || c = '\\' || isStop c

/-- Everything up to a blank or the closing quote. -/
def quotedWords (double : Bool) : Nat → Cursor → Except Error (List Char × Cursor)
  | 0, c => .ok ([], c)
  | fuel + 1, c => do
    let (run, c) := c.takeWhile (!endsQuotedRun ·)
    let x := c.peek
    if !double && x = '\'' && c.look 1 = '\'' then
      let (more, c) ← quotedWords double fuel (c.steps 2)
      .ok (run ++ '\'' :: more, c)
    else if (double && x = '\'') || (!double && (x = '"' || x = '\\')) then
      let (more, c) ← quotedWords double fuel c.step
      .ok (run ++ x :: more, c)
    else if double && x = '\\' then
      let (escaped, c) ← escape c.step
      let (more, c) ← quotedWords double fuel c
      .ok (run ++ escaped ++ more, c)
    else .ok (run, c)

/-- The rest of a quoted scalar after its first words. -/
def quotedRest (double : Bool) (quote : Char) : Nat → Cursor → Except Error (List Char × Cursor)
  | 0, _ => .error .malformed
  | fuel + 1, c =>
    if c.peek = quote then .ok ([], c.step)
    else do
      let (blanks, c) ← quotedSpaces c
      let (words, c) ← quotedWords double c.fuel c
      let (more, c) ← quotedRest double quote fuel c
      .ok (blanks ++ words ++ more, c)

/-- A quoted scalar; the cursor stands at its opening quote. -/
def quotedText (c : Cursor) : Except Error (List Char × Cursor) := do
  let quote := c.peek
  let double := quote = '"'
  let c := c.step
  let (words, c) ← quotedWords double c.fuel c
  let (more, c) ← quotedRest double quote c.fuel c
  .ok (words ++ more, c)

/-! ### Block scalars -/

/-- Passes spaces, but none at or beyond a column. -/
def skipIndent (indent : Nat) (c : Cursor) : Cursor :=
  let spaces := (c.rest.takeWhile (· = ' ')).length
  c.steps (min spaces (indent - c.column))

/-- Passes empty lines of a block scalar and gives back their ends. -/
def blockBreaks (indent : Nat) : Nat → Cursor → List Char × Cursor
  | 0, c => ([], c)
  | fuel + 1, c =>
    match (skipIndent indent c).lineBreak with
    | (some b, c) =>
      let (more, c) := blockBreaks indent fuel c
      (b :: more, c)
    | (none, c) => ([], c)

/-- Passes the empty lines in front of a block scalar: their ends and the widest indentation. -/
def blockIndentation : Nat → Nat → Cursor → List Char × Nat × Cursor
  | 0, widest, c => ([], widest, c)
  | fuel + 1, widest, c =>
    let c := c.skipSpaces
    let widest := max widest c.column
    match c.lineBreak with
    | (some b, c) =>
      let (more, widest, c) := blockIndentation fuel widest c
      (b :: more, widest, c)
    | (none, c) => ([], widest, c)

/-- How a block scalar ends: with no line end, with one, or with all of them. -/
inductive Chomping where
  | strip
  | clip
  | keep
deriving DecidableEq, Repr

/-- The marks behind the indicator of a block scalar. -/
def blockHeader (c : Cursor) : Except Error (Chomping × Option Nat × Cursor) := do
  let chomping? (x : Char) : Option Chomping :=
    if x = '+' then some .keep else if x = '-' then some .strip else none
  let increment? (x : Char) : Except Error (Option Nat) :=
    if x = '0' then .error .malformed
    else if x.isDigit then .ok (some (x.toNat - 48)) else .ok none
  let (chomping, increment, c) ← match chomping? c.peek with
    | some chomping => do
      let c := c.step
      match ← increment? c.peek with
      | some n => pure (chomping, some n, c.step)
      | none => pure (chomping, none, c)
    | none => do
      match ← increment? c.peek with
      | some n =>
        let c := c.step
        match chomping? c.peek with
        | some chomping => pure (chomping, some n, c.step)
        | none => pure (.clip, some n, c)
      | none => pure (.clip, none, c)
  if isSpaceStop c.peek then .ok (chomping, increment, c) else .error .malformed

/-- Passes what may stand at the end of a line: blanks, a remark and the line end. -/
def endOfLine (c : Cursor) : Except Error Cursor :=
  let c := c.skipSpaces
  let c := if c.peek = '#' then c.skipWhile (!isLineStop ·) else c
  if isLineStop c.peek then .ok c.lineBreak.2 else .error .malformed

/-- The lines of a block scalar. `breaks` are the line ends passed before the next line; the
result ends with the last line's own end and the line ends after it, given back apart. -/
def blockLines (folded : Bool) (indent : Nat) :
    Nat → List Char → Cursor → List Char × List Char × List Char × Cursor
  | 0, breaks, c => ([], [], breaks, c)
  | fuel + 1, breaks, c =>
    if c.column = indent && c.peek ≠ ending then
      let flush := !(c.peek = ' ' || c.peek = '\t')
      let (line, c) := c.takeWhile (!isLineStop ·)
      let (lineEnd, c) := c.lineBreak
      let lineEnd := lineEnd.toList
      let (after, c) := blockBreaks indent c.fuel c
      if c.column = indent && c.peek ≠ ending then
        let between :=
          if folded && lineEnd = ['\n'] && flush && !(c.peek = ' ' || c.peek = '\t') then
            (if after.isEmpty then [' '] else [])
          else lineEnd
        let (more, lastEnd, last, c) := blockLines folded indent fuel after c
        (breaks ++ line ++ between ++ more, lastEnd, last, c)
      else (breaks ++ line, lineEnd, after, c)
    else ([], [], breaks, c)

/-- A block scalar; the cursor stands at its indicator, and `parent` is the indentation of the
collection around it. -/
def blockText (parent : Int) (c : Cursor) : Except Error (List Char × Cursor) := do
  let folded := c.peek = '>'
  let (chomping, increment, c) ← blockHeader c.step
  let c ← endOfLine c
  let least := max (parent + 1).toNat 1
  let (breaks, indent, c) :=
    match increment with
    | some n =>
      let indent := least + n - 1
      let (breaks, c) := blockBreaks indent c.fuel c
      (breaks, indent, c)
    | none =>
      let (breaks, widest, c) := blockIndentation c.fuel 0 c
      (breaks, max least widest, c)
  let (body, lastEnd, last, c) := blockLines folded indent c.fuel breaks c
  let ending :=
    match chomping with
    | .strip => []
    | .clip => lastEnd
    | .keep => lastEnd ++ last
  .ok (body ++ ending, c)

/-! ### Plain scalars -/

/-- Passes the line ends inside a plain scalar; `none` when a document starts or ends there. -/
def plainBreaks : Nat → Cursor → Option (List Char) × Cursor
  | 0, c => (some [], c)
  | fuel + 1, c =>
    match c.skipSpaces.lineBreak with
    | (some b, c) =>
      if c.atDocumentMarker then (none, c)
      else
        let (more, c) := plainBreaks fuel c
        (more.map (b :: ·), c)
    | (none, c) => (some [], c)

/-- The blanks inside a plain scalar as they read, and whether a line ended among them. -/
def plainSpaces (c : Cursor) : List Char × Bool × Cursor :=
  let (blanks, c) := c.takeWhile (· = ' ')
  match c.lineBreak with
  | (some b, c) =>
    if c.atDocumentMarker then ([], true, c)
    else
      match plainBreaks c.fuel c with
      | (none, c) => ([], true, c)
      | (some breaks, c) =>
        let first := if b ≠ '\n' then [b] else if breaks.isEmpty then [' '] else []
        (first ++ breaks, true, c)
  | (none, c) => (blanks, false, c)

/-- The characters that have a meaning of their own between brackets. -/
def isFlowMark (c : Char) : Bool := c = ',' || c = '[' || c = ']' || c = '{' || c = '}'

/-- The length of a run of characters of a plain scalar. -/
def plainRun (flow : Bool) : List Char → Nat
  | [] => 0
  | x :: rest =>
    let next := rest.headD ending
    if isStop x || (x = ':' && (isStop next || (flow && isFlowMark next)))
        || (flow && (isFlowMark x || x = '?')) then 0
    else plainRun flow rest + 1

/-- A plain scalar from its first character on, and whether a line ended after its last part;
`blanks` stands before the next part. -/
def plainParts (flow : Bool) (indent : Int) :
    Nat → List Char → Bool → Cursor → List Char × Bool × Cursor
  | 0, _, ended, c => ([], ended, c)
  | fuel + 1, blanks, ended, c =>
    let n := if c.peek = '#' then 0 else plainRun flow c.rest
    if n = 0 then ([], ended, c)
    else
      let part := blanks ++ c.rest.take n
      let (blanks, ended, c) := plainSpaces (c.steps n)
      if blanks.isEmpty || c.peek = '#' || (!flow && c.column < indent) then (part, ended, c)
      else
        let (more, ended, c) := plainParts flow indent fuel blanks ended c
        (part ++ more, ended, c)

/-- A plain scalar, and whether a line ended after its last part. -/
def plainText (flow : Bool) (parent : Int) (c : Cursor) : List Char × Bool × Cursor :=
  plainParts flow (parent + 1) c.fuel [] false c

/-- Whether a plain scalar starts here. -/
def startsPlain (flow : Bool) (c : Cursor) : Bool :=
  let x := c.peek
  let indicator := "-?:,[]\x7b\x7d#&*!|>'\"%@\x60".toList
  (!isStop x && !indicator.contains x)
    || (!isStop (c.look 1) && (x = '-' || (!flow && (x = '?' || x = ':'))))

/-! ### Names and tags -/

/-- The characters of anchors, handles and directive names. -/
def isNameChar (c : Char) : Bool :=
  let n := c.toNat
  (48 ≤ n && n ≤ 57) || (65 ≤ n && n ≤ 90) || (97 ≤ n && n ≤ 122) || c = '-' || c = '_'

/-- A name that ends at a character of a class. -/
def nameText (stop : Char → Bool) (c : Cursor) : Except Error (List Char × Cursor) :=
  let (name, c) := c.takeWhile isNameChar
  if name.isEmpty || !stop c.peek then .error .malformed else .ok (name, c)

/-- What may follow the name of an anchor or alias. -/
def endsAnchor (c : Char) : Bool := isStop c || "?:,]\x7d%@\x60".toList.contains c

/-- The characters of a tag other than escapes. -/
def isTagChar (c : Char) : Bool :=
  isNameChar c || ";/?:@&=+$,.!~*'()[]".toList.contains c

/-- A run of bytes written by their numbers, as text. -/
def tagEscapes : Nat → Cursor → Except Error (List UInt8 × Cursor)
  | 0, c => .ok ([], c)
  | fuel + 1, c =>
    if c.peek = '%' then
      let c := c.step
      let digits := c.rest.take 2
      if digits.length < 2 then .error .malformed
      else
        match hexValue? digits with
        | none => .error .malformed
        | some n => do
          let (more, c) ← tagEscapes fuel (c.steps 2)
          .ok (UInt8.ofNat n :: more, c)
    else .ok ([], c)

/-- The parts of a tag's text. -/
def tagParts : Nat → Cursor → Except Error (List Char × Cursor)
  | 0, c => .ok ([], c)
  | fuel + 1, c =>
    if c.peek = '%' then do
      let (bytes, c) ← tagEscapes c.fuel c
      match Utf8.decode? bytes with
      | none => .error .malformed
      | some part =>
        let (more, c) ← tagParts fuel c
        .ok (part ++ more, c)
    else if isTagChar c.peek then do
      let (part, c) := c.takeWhile isTagChar
      let (more, c) ← tagParts fuel c
      .ok (part ++ more, c)
    else .ok ([], c)

/-- The text of a tag, which is not empty. -/
def tagText (c : Cursor) : Except Error (List Char × Cursor) :=
  if c.peek = '%' || isTagChar c.peek then tagParts c.fuel c else .error .malformed

/-- A tag handle: one exclamation mark, or two with a name between them. -/
def tagHandle (c : Cursor) : Except Error (List Char × Cursor) :=
  if c.peek ≠ '!' then .error .malformed
  else if c.look 1 = ' ' then .ok (['!'], c.step)
  else
    let (name, c) := c.step.takeWhile isNameChar
    if c.peek = '!' then .ok ('!' :: name ++ ['!'], c.step) else .error .malformed

/-- A tag: its handle, if it has one, and the rest of its text. -/
def tagOf (c : Cursor) : Except Error (Option (List Char) × List Char × Cursor) := do
  let next := c.look 1
  let (handle, suffix, c) ←
    if next = '<' then do
      let (suffix, c) ← tagText (c.steps 2)
      if c.peek = '>' then pure (none, suffix, c.step) else .error .malformed
    else if isStop next then pure (none, ['!'], c.step)
    else do
      let word := (c.rest.drop 1).takeWhile (!isSpaceStop ·)
      let (handle, c) ← if word.contains '!' then tagHandle c else pure (['!'], c.step)
      let (suffix, c) ← tagText c
      pure (some handle, suffix, c)
  if isSpaceStop c.peek then .ok (handle, suffix, c) else .error .malformed

end LintHost.Yaml
