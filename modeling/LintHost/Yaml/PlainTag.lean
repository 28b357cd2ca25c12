/-
Tags, and the tags that plain scalars have by their text.

Truth values are twelve-odd words, numbers may hold underscores and colons between sexagesimal
places, a floating-point number needs a point and a signed exponent, and days and moments are
written with dashes and colons.  Whatever fits none of these is a text.
-/
import LintHost.Text.Digit

namespace LintHost.Yaml

/-- What decides how the value of a node is built. -/
inductive Tag where
  | null
  | bool
  | int
  | float
  | moment
  | binary
  | str
  | seq
  | map
  | set
  | orderedMap
  | pairs
  | merge
  | default
  | unknown
deriving DecidableEq, Repr, Inhabited

namespace Tag

/-- The beginning of the tags that have a meaning. -/
def standard : List Char := "tag:yaml.org,2002:".toList

/-- The names of the tags that have a meaning. -/
def named : List (String × Tag) :=
  [("null", .null), ("bool", .bool), ("int", .int), ("float", .float), ("timestamp", .moment),
   ("binary", .binary), ("str", .str), ("seq", .seq), ("map", .map), ("set", .set),
   ("omap", .orderedMap), ("pairs", .pairs), ("merge", .merge), ("value", .default)]

/-- The tag of a full text. -/
def ofText (s : List Char) : Tag :=
  if standard.isPrefixOf s then
    (named.lookup (String.ofList (s.drop standard.length))).getD .unknown
  else .unknown

end Tag

/-! ### Recognizers -/

def isDigit (c : Char) : Bool := c.isDigit

/-- Digits and underscores. -/
def isSpacedDigit (c : Char) : Bool := c.isDigit || c = '_'

/-- The text without a sign in front. -/
def unsigned : List Char → List Char
  | '+' :: rest => rest
  | '-' :: rest => rest
  | s => s

/-- Whether the text is a first digit of a class and then digits and underscores. -/
def isSpacedNumber (first : Char → Bool) : List Char → Bool
  | [] => false
  | c :: rest => first c && rest.all isSpacedDigit

/-- Whether the text is an exponent with its sign, or nothing. -/
def isSignedExponent : List Char → Bool
  | [] => true
  | e :: sign :: rest =>
    (e = 'e' || e = 'E') && (sign = '+' || sign = '-') && !rest.isEmpty && rest.all isDigit
  | _ => false

/-- The parts between colons. -/
def splitColons : List Char → List (List Char)
  | [] => [[]]
  | ':' :: rest => [] :: splitColons rest
  | c :: rest =>
    match splitColons rest with
    | [] => [[c]]
    | p :: more => (c :: p) :: more

/-- Whether the text is a sexagesimal place: one digit, or two up to 59. -/
def isSixtieth : List Char → Bool
  | [a] => a.isDigit
  | [a, b] => '0' ≤ a && a ≤ '5' && b.isDigit
  | _ => false

/-- Whether the text is a word for a truth value. -/
def isBoolText (s : List Char) : Bool :=
  ["yes", "Yes", "YES", "no", "No", "NO", "true", "True", "TRUE", "false", "False", "FALSE",
   "on", "On", "ON", "off", "Off", "OFF"].contains (String.ofList s)

/-- Whether the text is a word for nothing. -/
def isNullText (s : List Char) : Bool :=
  ["", "~", "null", "Null", "NULL"].contains (String.ofList s)

/-- Whether the text is a whole number. -/
def isIntText (s : List Char) : Bool :=
  let u := unsigned s
  match u with
  | '0' :: 'b' :: rest => !rest.isEmpty && rest.all fun c => c = '0' || c = '1' || c = '_'
  | '0' :: 'x' :: rest =>
    !rest.isEmpty && rest.all fun c =>
      c.isDigit || ('a' ≤ c && c ≤ 'f') || ('A' ≤ c && c ≤ 'F') || c = '_'
  | '0' :: rest => rest.all fun c => ('0' ≤ c && c ≤ '7') || c = '_'
  | _ =>
    match splitColons u with
    | first :: places =>
      isSpacedNumber (fun c => c.isDigit && c ≠ '0') first && places.all isSixtieth
    | [] => false

/-- Whether the text is a floating-point number. -/
def isFloatText (s : List Char) : Bool :=
  let u := unsigned s
  let special := ["inf", "Inf", "INF"]
  let notNumbers := ["nan", "NaN", "NAN"]
  match u with
  | '.' :: rest =>
    special.contains (String.ofList rest)
      || (s.length == u.length && notNumbers.contains (String.ofList rest))
      || (s.length == u.length
          && isSpacedNumber isDigit (rest.takeWhile isSpacedDigit)
          && isSignedExponent (rest.dropWhile isSpacedDigit))
  | _ =>
    let whole := u.takeWhile fun c => isSpacedDigit c || c = ':'
    match u.dropWhile fun c => isSpacedDigit c || c = ':' with
    | '.' :: rest =>
      match splitColons whole with
      | [first] =>
        isSpacedNumber isDigit first && isSignedExponent (rest.dropWhile isSpacedDigit)
      | first :: places =>
        isSpacedNumber isDigit first && places.all isSixtieth && rest.all isSpacedDigit
      | [] => false
    | _ => false

/-- The parts of a written day or moment. -/
structure MomentText where
  year : Nat
  month : Nat
  day : Nat
  /-- Hour, minute and second. -/
  time : Option (Nat × Nat × Nat)
  fraction : List Char
  /-- The offset in minutes; `none` where no zone is written. -/
  zone : Option Int
deriving Repr

/-- The value of decimal digits. -/
def digitsValue (s : List Char) : Nat := s.foldl (fun n c => n * 10 + (c.toNat - 48)) 0

/-- One or two digits, at least so many, and what follows them. -/
def upToTwoDigits (s : List Char) : Option (Nat × List Char) :=
  match s with
  | a :: b :: rest =>
    if a.isDigit then
      if b.isDigit then some (digitsValue [a, b], rest) else some (digitsValue [a], b :: rest)
    else none
  | [a] => if a.isDigit then some (digitsValue [a], []) else none
  | [] => none

/-- Exactly two digits, and what follows them. -/
def twoDigits (s : List Char) : Option (Nat × List Char) :=
  match s with
  | a :: b :: rest => if a.isDigit && b.isDigit then some (digitsValue [a, b], rest) else none
  | _ => none

/-- A character that has to be there. -/
def exactly (c : Char) : List Char → Option (List Char)
  | [] => none
  | x :: rest => if x = c then some rest else none

/-- The zone at the end of a moment: none, universal time, or an offset. -/
def zoneText (s : List Char) : Option (Option Int) :=
  match s.dropWhile fun c => c = ' ' || c = '\t' with
  | [] => if s.isEmpty then some none else none
  | ['Z'] => some (some 0)
  | sign :: rest =>
    if sign = '+' || sign = '-' then do
      let (hours, rest) ← upToTwoDigits rest
      let minutes ← match rest with
        | [] => some 0
        | ':' :: rest => do
          let (m, rest) ← twoDigits rest
          if rest.isEmpty then some m else none
        | _ => none
      let offset : Int := hours * 60 + minutes
      some (some (if sign = '-' then -offset else offset))
    else none

/-- The time of day at the end of a moment. -/
def timeText (year month day : Nat) (s : List Char) : Option MomentText := do
  let (hour, rest) ← upToTwoDigits s
  let (minute, rest) ← twoDigits (← exactly ':' rest)
  let (second, rest) ← twoDigits (← exactly ':' rest)
  let (fraction, rest) := match rest with
    | '.' :: rest => (rest.takeWhile isDigit, rest.dropWhile isDigit)
    | rest => ([], rest)
  let zone ← zoneText rest
  some ⟨year, month, day, some (hour, minute, second), fraction, zone⟩

/-- Reads a day or a moment. -/
def momentText (s : List Char) : Option MomentText := do
  let digits := s.take 4
  if digits.length < 4 || !digits.all isDigit then none
  else
    let year := digitsValue digits
    let (month, rest) ← upToTwoDigits (← exactly '-' (s.drop 4))
    let (day, rest) ← upToTwoDigits (← exactly '-' rest)
    match rest with
    | [] => some ⟨year, month, day, none, [], none⟩
    | c :: more =>
      if c = 'T' || c = 't' then timeText year month day more
      else if c = ' ' || c = '\t' then
        timeText year month day (more.dropWhile fun c => c = ' ' || c = '\t')
      else none

/-- Whether the text is a day or a moment; a day on its own needs two digits for its month and
its day. -/
def isMomentText (s : List Char) : Bool :=
  match momentText s with
  | some m => m.time.isSome || s.length == 10
  | none => false

/-- A text without the line end it may close with. -/
def withoutFinalBreak (s : List Char) : List Char :=
  match s.reverse with
  | '\n' :: front => front.reverse
  | _ => s

/-- The tag of a plain scalar. -/
def Tag.ofPlain (text : List Char) : Tag :=
  let s := withoutFinalBreak text
  if isBoolText s then .bool
  else if isFloatText s then .float
  else if isIntText s then .int
  else if s = ['<', '<'] then .merge
  else if isNullText s && (text.isEmpty || !s.isEmpty) then .null
  else if isMomentText s then .moment
  else if s = ['='] then .default
  else .str

end LintHost.Yaml
