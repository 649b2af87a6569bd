/-!
# Calendar dates

Dates of the proleptic Gregorian calendar, within the years `Date.firstYear` to `Date.lastYear`.

* `Date.of?`: the date of a year, month and day, if there is one.
* `Date.next?`, `Date.previous?`: the neighbouring days.
-/

namespace ReleaseGate

/-- Whether a year has a 29th of February. -/
def isLeapYear (year : Int) : Bool :=
  (year % 4 == 0 && year % 100 != 0) || year % 400 == 0

/-- The days of a month, counted from 1; none for a month that does not exist. -/
def daysInMonth (year : Int) (month : Nat) : Nat :=
  match month with
  | 2 => if isLeapYear year then 29 else 28
  | 4 | 6 | 9 | 11 => 30
  | 1 | 3 | 5 | 7 | 8 | 10 | 12 => 31
  | _ => 0

/-- The first year of the calendar. -/
def Date.firstYear : Int := -262143

/-- The last year of the calendar. -/
def Date.lastYear : Int := 262142

/-- A year, month and day of the calendar. -/
def IsDate (year : Int) (month day : Nat) : Prop :=
  Date.firstYear ≤ year ∧ year ≤ Date.lastYear ∧ 1 ≤ day ∧ day ≤ daysInMonth year month

instance (year : Int) (month day : Nat) : Decidable (IsDate year month day) :=
  inferInstanceAs (Decidable (_ ∧ _))

/-- A day of the calendar. -/
structure Date where
  year : Int
  month : Nat
  day : Nat
  isDate : IsDate year month day
  deriving DecidableEq

namespace Date

/-- The date of a year, month and day, if there is one. -/
def of? (year : Int) (month day : Nat) : Option Date :=
  if h : IsDate year month day then some ⟨year, month, day, h⟩ else none

/-- The day after: the next of the month, else the first of the next month. -/
def next? (date : Date) : Option Date :=
  if date.day < daysInMonth date.year date.month then of? date.year date.month (date.day + 1)
  else if date.month < 12 then of? date.year (date.month + 1) 1
  else of? (date.year + 1) 1 1

/-- The day before: the one before in the month, else the last of the month before. -/
def previous? (date : Date) : Option Date :=
  if 1 < date.day then of? date.year date.month (date.day - 1)
  else if 1 < date.month then
    of? date.year (date.month - 1) (daysInMonth date.year (date.month - 1))
  else of? (date.year - 1) 12 31

/-- The date so many days later (or earlier, if negative), one day at a time for one day at most. -/
def shift? (date : Date) (days : Int) : Option Date :=
  if days = 0 then some date else if days < 0 then date.previous? else date.next?

end Date

end ReleaseGate
