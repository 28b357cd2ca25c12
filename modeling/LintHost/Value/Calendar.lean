/-
Days of the calendar and moments of a day.

`Date.make?` accepts the days of the proleptic Gregorian calendar from the year 1 to 9999 and
`Moment.make?` the times of such a day down to microseconds, with the distance from universal
time when it is known.  Two moments with known distances are the same when they denote the same
instant; a moment without one is the same only as another without one.
-/
import LintHost.Text.Digit

namespace LintHost

open LintHost.Text

/-- A day. -/
structure Date where
  year : Nat
  month : Nat
  day : Nat
deriving DecidableEq, Repr, Inhabited

/-- A time of a day; the offset from universal time is in minutes. -/
structure Moment where
  date : Date
  hour : Nat
  minute : Nat
  second : Nat
  microsecond : Nat
  offset : Option Int
deriving DecidableEq, Repr, Inhabited

namespace Date

/-- Whether the year has a leap day. -/
def isLeap (year : Nat) : Bool := year % 4 == 0 && (year % 100 != 0 || year % 400 == 0)

/-- The number of days of a month. -/
def monthLength (year month : Nat) : Nat :=
  if month == 2 then (if isLeap year then 29 else 28)
  else if month == 4 || month == 6 || month == 9 || month == 11 then 30
  else 31

/-- The day, if the calendar has it. -/
def make? (year month day : Nat) : Option Date :=
  if 1 ≤ year && year ≤ 9999 && 1 ≤ month && month ≤ 12 && 1 ≤ day
      && day ≤ monthLength year month then
    some ⟨year, month, day⟩
  else none

/-- Days before the first of January of a year. -/
def daysBeforeYear (year : Nat) : Nat :=
  let y := year - 1
  y * 365 + y / 4 - y / 100 + y / 400

/-- The number of the day, counted from the first day of the year 1. -/
def ordinal (d : Date) : Nat :=
  daysBeforeYear d.year
    + (List.range (d.month - 1)).foldl (fun n m => n + monthLength d.year (m + 1)) 0 + d.day

/-- Year, month and day with dashes. -/
def text (d : Date) : List Char :=
  padded 4 d.year ++ '-' :: padded 2 d.month ++ '-' :: padded 2 d.day

end Date

namespace Moment

/-- The moment, if the day has it and the offset is less than a day. -/
def make? (date : Date) (hour minute second microsecond : Nat) (offset : Option Int) :
    Option Moment :=
  if hour < 24 && minute < 60 && second < 60 && microsecond < 1000000
      && (offset.all fun o => -1440 < o && o < 1440) then
    some ⟨date, hour, minute, second, microsecond, offset⟩
  else none

/-- Microseconds since the first day, by the moment's own clock. -/
def clock (t : Moment) : Nat :=
  (((t.date.ordinal * 24 + t.hour) * 60 + t.minute) * 60 + t.second) * 1000000 + t.microsecond

/-- Whether two moments denote one instant. -/
def same (s t : Moment) : Bool :=
  match s.offset, t.offset with
  | some a, some b => (s.clock : Int) - a * 60000000 == (t.clock : Int) - b * 60000000
  | none, none => s.clock == t.clock
  | _, _ => false

/-- The offset as hours and minutes with a sign. -/
def offsetText (o : Int) : List Char :=
  (if o < 0 then '-' else '+') :: padded 2 (o.natAbs / 60) ++ ':' :: padded 2 (o.natAbs % 60)

/-- Date and time with a separator between them; microseconds only where there are any. -/
def text (separator : Char) (t : Moment) : List Char :=
  t.date.text ++ separator :: padded 2 t.hour ++ ':' :: padded 2 t.minute
    ++ ':' :: padded 2 t.second
    ++ (if t.microsecond = 0 then [] else '.' :: padded 6 t.microsecond)
    ++ (match t.offset with | none => [] | some o => offsetText o)

end Moment

end LintHost
