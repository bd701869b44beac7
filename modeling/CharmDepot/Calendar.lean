/-
Calendar dates and points in time of the proleptic Gregorian calendar, years 1 to 9999, with an
optional offset from universal time in whole minutes.
-/
import CharmDepot.Number.Decimal

namespace CharmDepot

open Number

/-- Whether a year has a 29 February. -/
def isLeapYear (y : Nat) : Bool :=
  y % 4 == 0 && (y % 100 != 0 || y % 400 == 0)

/-- The number of days of a month; no days outside January to December. -/
def daysInMonth (y m : Nat) : Nat :=
  match m with
  | 1 | 3 | 5 | 7 | 8 | 10 | 12 => 31
  | 4 | 6 | 9 | 11 => 30
  | 2 => if isLeapYear y then 29 else 28
  | _ => 0

/-- A calendar date. -/
structure Date where
  year : Nat
  month : Nat
  day : Nat
  deriving Repr, DecidableEq

namespace Date

/-- The date with these fields, if there is one. -/
def make? (y m d : Nat) : Option Date :=
  if 1 ≤ y && y ≤ 9999 && 1 ≤ d && d ≤ daysInMonth y m then some ⟨y, m, d⟩ else none

/-- Year, month and day with hyphens between them. -/
def isoChars (d : Date) : List Char :=
  padded 4 d.year ++ '-' :: padded 2 d.month ++ '-' :: padded 2 d.day

/-- The number of days since the first day of year 1, which is day 1. -/
def ordinal (d : Date) : Nat :=
  let y := d.year - 1
  let before := (List.range (d.month - 1)).foldl (fun n i => n + daysInMonth d.year (i + 1)) 0
  y * 365 + y / 4 - y / 100 + y / 400 + before + d.day

end Date

/-- A point in time. -/
structure Moment where
  date : Date
  hour : Nat
  minute : Nat
  second : Nat
  microsecond : Nat
  /-- Minutes ahead of universal time, if the offset is known. -/
  offset : Option Int
  deriving Repr, DecidableEq

namespace Moment

/-- The point in time with these fields, if there is one. Offsets stay within a day. -/
def make? (date : Date) (hour minute second microsecond : Nat) (offset : Option Int) :
    Option Moment :=
  let offsetFits := match offset with
    | none => true
    | some o => -1440 < o && o < 1440
  if hour < 24 && minute < 60 && second < 60 && microsecond < 1000000 && offsetFits then
    some ⟨date, hour, minute, second, microsecond, offset⟩
  else none

/-- An offset as hours and minutes with a sign. -/
def offsetChars (o : Int) : List Char :=
  (if o < 0 then '-' else '+') :: padded 2 (o.natAbs / 60) ++ ':' :: padded 2 (o.natAbs % 60)

/-- Date and time with a given character between them. Microseconds are written only if there are
any, the offset only if it is known. -/
def isoChars (between : Char) (t : Moment) : List Char :=
  let micro := if t.microsecond = 0 then [] else '.' :: padded 6 t.microsecond
  t.date.isoChars ++ between :: padded 2 t.hour ++ ':' :: padded 2 t.minute ++ ':' ::
    padded 2 t.second ++ micro ++ (t.offset.map offsetChars).getD []

/-- Microseconds since the start of year 1, in universal time if the offset is known. -/
def instant (t : Moment) : Int :=
  let minutes : Int := (t.date.ordinal * 24 + t.hour) * 60 + t.minute - t.offset.getD 0
  (minutes * 60 + t.second) * 1000000 + t.microsecond

/-- Whether two points in time are the same: both without an offset and alike, or both with one and
at the same instant. -/
def same (a b : Moment) : Bool :=
  a.offset.isSome == b.offset.isSome && a.instant == b.instant

end Moment

end CharmDepot
