/-
Checking data against a shape, with every fault reported.

A check either gives a value of the shape or a list of faults, each with the way to the place
where it was found.  Checks of several fields are put together side by side: all of them run, and
their faults are joined in order, so that one bad field hides no other.

Numbers and truth values are taken in more spellings than their own: see `Check.int` and
`Check.bool`.
-/
import LintHost.Value.Basic
import LintHost.Text.Blank
import LintHost.Text.Half
import LintHost.Text.Utf8

namespace LintHost

/-- One step on the way to a place in the data. -/
inductive PathStep where
  | field (name : String)
  | index (i : Nat)
deriving DecidableEq, Repr

/-- What is wrong at a place. -/
inductive Fault where
  | missing
  | modelType
  | stringType
  | stringUnicode
  | listType
  | tupleType
  | intType
  | intParsing
  | intTooLong
  | intFromFloat
  | notFinite
  | boolType
  | boolParsing
  | tooSmall
deriving DecidableEq, Repr

/-- The word for a fault. -/
def Fault.code : Fault → String
  | .missing => "missing"
  | .modelType => "model_type"
  | .stringType => "string_type"
  | .stringUnicode => "string_unicode"
  | .listType => "list_type"
  | .tupleType => "tuple_type"
  | .intType => "int_type"
  | .intParsing => "int_parsing"
  | .intTooLong => "int_parsing_size"
  | .intFromFloat => "int_from_float"
  | .notFinite => "finite_number"
  | .boolType => "bool_type"
  | .boolParsing => "bool_parsing"
  | .tooSmall => "greater_than_equal"

/-- A fault and the way to it. -/
structure Problem where
  path : List PathStep
  fault : Fault
deriving DecidableEq, Repr

/-- A step as messages write it. -/
def PathStep.text : PathStep → String
  | .field name => name
  | .index i => String.ofList (Text.decimal i)

/-- The way to a problem, with points between its steps. -/
def Problem.dotted (p : Problem) : String := ".".intercalate (p.path.map PathStep.text)

/-- A value of the shape, or all that is wrong with the data. -/
inductive Check (α : Type) where
  | ok (a : α)
  | bad (problems : List Problem)
deriving Repr

namespace Check

def map {α β : Type} (f : α → β) : Check α → Check β
  | .ok a => .ok (f a)
  | .bad ps => .bad ps

/-- Both checks; the faults of the first come first. -/
def both {α β : Type} : Check (α → β) → Check α → Check β
  | .ok f, .ok a => .ok (f a)
  | .ok _, .bad qs => .bad qs
  | .bad ps, .ok _ => .bad ps
  | .bad ps, .bad qs => .bad (ps ++ qs)

instance : Applicative Check where
  pure := .ok
  map := map
  seq f a := both f (a ())

/-- A single fault here. -/
def fault {α : Type} (f : Fault) : Check α := .bad [⟨[], f⟩]

/-- A check of a part: its faults are found one step further down. -/
def under {α : Type} (s : PathStep) : Check α → Check α
  | .ok a => .ok a
  | .bad ps => .bad (ps.map fun p => ⟨s :: p.path, p.fault⟩)

/-- A check of every item of a list, counted from `i`. -/
def items {α : Type} (check : Value → Check α) : Nat → List Value → Check (List α)
  | _, [] => .ok []
  | i, v :: rest => (· :: ·) <$> under (.index i) (check v) <*> items check (i + 1) rest

/-- The problems of a check. -/
def problems {α : Type} : Check α → List Problem
  | .ok _ => []
  | .bad ps => ps

/-! ### Fields of a mapping -/

/-- A field that has to be there. -/
def required {α : Type} (name : String) (check : Value → Check α)
    (entries : List (Value × Value)) : Check α :=
  under (.field name) <|
    match Value.lookupName name entries with
    | some v => check v
    | none => fault .missing

/-- A field with a value for its absence. -/
def withDefault {α : Type} (name : String) (default : α) (check : Value → Check α)
    (entries : List (Value × Value)) : Check α :=
  under (.field name) <|
    match Value.lookupName name entries with
    | some v => check v
    | none => .ok default

/-- A value that may be null. -/
def nullable {α : Type} (check : Value → Check α) : Value → Check (Option α)
  | .null => .ok none
  | v => some <$> check v

/-- A mapping. -/
def model {α : Type} (check : List (Value × Value) → Check α) (v : Value) : Check α :=
  match v.view with
  | .map entries => check entries
  | _ => fault .modelType

/-! ### Scalars -/

/-- A text: texts, and byte strings that are text in UTF-8. -/
def str : Value → Check String
  | .str s => .ok s
  | .bytes bs =>
    match Text.Utf8.decode? bs with
    | some s => .ok (String.ofList s)
    | none => fault .stringUnicode
  | _ => fault .stringType

/-- Takes off zeros in front, underscores among them: what is left starts at the first other digit
or sign, or at the last zero before a point or the end. `last` is the character before. -/
def afterZeros (last : Char) : List Char → Option (List Char)
  | [] => some [last]
  | c :: rest =>
    if c = '0' || c = '_' then afterZeros c rest
    else if c.isDigit || c = '-' then some (c :: rest)
    else if c = '.' then some (last :: c :: rest)
    else none

/-- The number without the zeros in front of it; none where it starts with no digit. -/
def withoutZeros : List Char → Option (List Char)
  | [] => none
  | c :: rest =>
    if c = '0' then afterZeros c rest
    else if c.isDigit then some (c :: rest)
    else none

/-- The number without a fraction of zeros. -/
def withoutFraction (s : List Char) : List Char :=
  match s.dropWhile (· ≠ '.') with
  | _ :: z :: zeros => if (z :: zeros).all (· = '0') then s.takeWhile (· ≠ '.') else s
  | _ => s

/-- Whether every underscore has something else on both sides. -/
def singleUnderscores : List Char → Bool
  | [] => true
  | ['_'] => false
  | '_' :: '_' :: _ => false
  | _ :: rest => singleUnderscores rest

/-- The number without its underscores; none where one stands at an end or beside another. -/
def withoutUnderscores (s : List Char) : Option (List Char) :=
  if s.head? ≠ some '_' && singleUnderscores s then some (s.filter (· ≠ '_')) else none

/-- Reads digits without a zero in front, as many as are read at all. -/
def plainNatural (s : List Char) : Check Nat :=
  let digits := s.takeWhile Char.isDigit
  if digits = ['0'] && s = digits then .ok 0
  else if digits = [] || digits.head? = some '0' then fault .intParsing
  else if digits.length > Text.maxDecimalDigits then fault .intTooLong
  else if s = digits then .ok (digits.foldl (fun n c => n * 10 + (c.toNat - 48)) 0)
  else fault .intParsing

/-- Reads a number with or without a minus sign. -/
def plainInteger : List Char → Check Int
  | '-' :: rest => map (fun (n : Nat) => -(n : Int)) (plainNatural rest)
  | rest => map Int.ofNat (plainNatural rest)

/-- Reads a number whose sign was read already. -/
def signedNumber (isNegative : Bool) (s : List Char) : Check Int :=
  match withoutZeros s with
  | none => fault .intParsing
  | some rest =>
    match withoutUnderscores (withoutFraction rest) with
    | none => fault .intParsing
    | some number => plainInteger (if isNegative then '-' :: number else number)

/-- A check of a text that has to be made of whole characters. -/
def ofWhole {α : Type} (check : List Char → Check α) (s : List Char) : Check α :=
  if Text.holdsHalf s then fault .stringUnicode else check s

/-- A whole number from text: a sign, zeros in front and a fraction of zeros are taken off before
what is left is read as a number, which may have a sign again where zeros stood in front. -/
def intText (s : List Char) : Check Int :=
  match Text.trimNumber s with
  | '-' :: rest => signedNumber true rest
  | '+' :: rest => signedNumber false rest
  | rest => signedNumber false rest

/-- Floating-point numbers are taken for whole ones strictly between this number and its
negative. -/
def floatLimit : Int := 9223372036854775808

/-- A floating-point number without a fraction as a whole number. -/
def wholeFloat (x : Binary64) : Check Int :=
  match x with
  | .nan | .infinite _ => fault .notFinite
  | x =>
    match x.toInt? with
    | none => fault .intFromFloat
    | some n => if n ≤ -floatLimit || floatLimit ≤ n then fault .intTooLong else .ok n

/-- A whole number: also truth values as 0 and 1, floating-point numbers without a fraction, and
texts that spell one. -/
def int : Value → Check Int
  | .int n => .ok n
  | .bool b => .ok (if b then 1 else 0)
  | .float x => wholeFloat x
  | .undefined _ => wholeFloat .nan
  | .str s => ofWhole intText s.toList
  | .bytes bs =>
    match Text.Utf8.decode? bs with
    | some s => intText s
    | none => fault .intParsing
  | _ => fault .intType

/-- The words for false and for true. -/
def falseWords : List String := ["0", "off", "f", "false", "n", "no"]
def trueWords : List String := ["1", "on", "t", "true", "y", "yes"]

/-- A truth value from text, in any case of the basic letters. -/
def boolText (s : List Char) : Check Bool :=
  let word := String.ofList (s.map Char.toLower)
  if falseWords.contains word then .ok false
  else if trueWords.contains word then .ok true
  else fault .boolParsing

/-- A truth value from a number: 0 or 1. -/
def boolInt (n : Int) : Check Bool :=
  if n = 0 then .ok false else if n = 1 then .ok true else fault .boolParsing

/-- A truth value: also the numbers 0 and 1 and a dozen words. A number that does not fit into 64
bits is of the wrong type altogether, as is one with a fraction. -/
def bool : Value → Check Bool
  | .bool b => .ok b
  | .int n => if -floatLimit ≤ n && n < floatLimit then boolInt n else fault .boolType
  | .float x =>
    match wholeFloat x with
    | .ok n => boolInt n
    | .bad _ => fault .boolType
  | .str s => ofWhole boolText s.toList
  | .bytes bs =>
    match Text.Utf8.decode? bs with
    | some s => boolText s
    | none => fault .boolParsing
  | _ => fault .boolType

/-- The items of a list, a pair or a set. -/
def itemsOf? (v : Value) : Option (List Value) :=
  match v.view with
  | .list vs | .set vs => some vs
  | .pair a b => some [a, b]
  | _ => none

/-- A list: also pairs and sets. -/
def list {α : Type} (check : Value → Check α) (v : Value) : Check (List α) :=
  match itemsOf? v with
  | some vs => items check 0 vs
  | none => fault .listType

/-- A list where an immutable one is wanted. -/
def tuple {α : Type} (check : Value → Check α) (v : Value) : Check (List α) :=
  match itemsOf? v with
  | some vs => items check 0 vs
  | none => fault .tupleType

end Check

end LintHost
