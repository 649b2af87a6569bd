import ReleaseGate.Time.Instant

/-!
# Instants of a clock

A clock counts nanoseconds since the start of 1970 in UTC, without leap seconds.

* `Date.ofDays`: the date so many days after the first of January 1970.
* `Instant.ofClock`: the instant of a count of nanoseconds.
-/

namespace ReleaseGate

/-- The days of a year. -/
def daysInYear (year : Int) : Nat := if isLeapYear year then 366 else 365

namespace Date

/-- The first day of 1970. -/
def epoch : Date := ⟨1970, 1, 1, by decide⟩

/-- The year that a day falls into, counted from the first day of a year, and the days before it in
that year. The first argument bounds the count of years. -/
def splitYear : Nat → Int → Nat → Int × Nat
  | 0, year, days => (year, days)
  | fuel + 1, year, days =>
    if days < daysInYear year then (year, days)
    else splitYear fuel (year + 1) (days - daysInYear year)

/-- The month that a day of a year falls into, and the days before it in that month. -/
def splitMonth (year : Int) : List Nat → Nat → Nat × Nat
  | [], days => (12, days)
  | month :: rest, days =>
    if days < daysInMonth year month then (month, days)
    else splitMonth year rest (days - daysInMonth year month)

/-- The date so many days after the first of January 1970. -/
def ofDays (days : Nat) : Date :=
  let (year, days) := splitYear (days / 365 + 1) 1970 days
  let (month, days) := splitMonth year [1, 2, 3, 4, 5, 6, 7, 8, 9, 10, 11, 12] days
  (of? year month (days + 1)).getD epoch

end Date

/-- The instant of a count of nanoseconds since the start of 1970. -/
def Instant.ofClock (nanoseconds : Nat) : Instant :=
  let seconds := nanoseconds / 1000000000
  { date := .ofDays (seconds / 86400)
    minute := Fin.ofNat 1440 (seconds / 60)
    second := ⟨seconds % 60, by omega⟩
    nano := Fin.ofNat 1000000000 nanoseconds }

end ReleaseGate
