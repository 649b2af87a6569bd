import ReleaseGate.Time.Date
import ReleaseGate.Binary64.Shortest

/-!
# Instants

An instant is a day and a time of day in UTC, to the nanosecond. The second 60 is a leap second and
may stand in any minute.

* `Instant.text`: RFC 3339 with the zone as `Z`; `Instant.offsetText`: with the zone as `+00:00`.
  The fraction has as few of 0, 3, 6 and 9 digits as lose nothing.
* `Instant.fileStamp`: date and time to the second for file names.
-/

namespace ReleaseGate

/-- A day and a time of day in UTC. -/
structure Instant where
  date : Date
  /-- Minutes since midnight. -/
  minute : Fin 1440
  /-- Seconds of the minute; 60 is a leap second. -/
  second : Fin 61
  /-- Nanoseconds of the second. -/
  nano : Fin 1000000000
  deriving DecidableEq

/-- Decimal digits, with zeros in front up to a width. -/
def padDigits (width n : Nat) : List Char :=
  let digits := decimalDigits n
  List.replicate (width - digits.length) '0' ++ digits

namespace Instant

/-- A year has four digits; one outside 0 to 9999 has a sign and at least four. -/
def yearText (year : Int) : List Char :=
  if 0 ≤ year ∧ year ≤ 9999 then padDigits 4 year.toNat
  else (if year < 0 then '-' else '+') :: padDigits 4 year.natAbs

/-- A fraction of a second in the fewest of 0, 3, 6 and 9 digits. -/
def fractionText (nano : Nat) : List Char :=
  if nano = 0 then []
  else if nano % 1000000 = 0 then '.' :: padDigits 3 (nano / 1000000)
  else if nano % 1000 = 0 then '.' :: padDigits 6 (nano / 1000)
  else '.' :: padDigits 9 nano

/-- Date and time of day, and then the zone. -/
def write (instant : Instant) (zone : List Char) : List Char :=
  yearText instant.date.year ++ '-' :: padDigits 2 instant.date.month ++
    '-' :: padDigits 2 instant.date.day ++
    'T' :: padDigits 2 (instant.minute / 60) ++ ':' :: padDigits 2 (instant.minute % 60) ++
    ':' :: padDigits 2 instant.second ++ fractionText instant.nano ++ zone

/-- RFC 3339, with `Z` for the zone. -/
def text (instant : Instant) : String := String.ofList (instant.write ['Z'])

/-- RFC 3339, with `+00:00` for the zone. -/
def offsetText (instant : Instant) : String := String.ofList (instant.write "+00:00".toList)

/-- Date and time of day to the second, in digits with one underscore. -/
def fileStamp (instant : Instant) : String :=
  String.ofList (yearText instant.date.year ++ padDigits 2 instant.date.month ++
    padDigits 2 instant.date.day ++ '_' :: padDigits 2 (instant.minute / 60) ++
    padDigits 2 (instant.minute % 60) ++ padDigits 2 instant.second)

end Instant

end ReleaseGate
