import ReleaseGate.Time.Instant
import ReleaseGate.Text.Blank

/-!
# Reading instants

The accepted form is a lenient RFC 3339. Each number may follow blanks; month, day, hour, minute
and second have one or two digits; the year has up to four digits, or a sign and any number of
them; `T`, `t` or a blank parts date and time; a fraction keeps nine digits; the zone is `Z`, `z`,
`UTC` in any case, or hours and minutes with an optional run of colons and blanks between them.

* `Instant.read?`: the instant of a text.
-/

namespace ReleaseGate.Instant

/-- A number of one digit to `width` digits behind blanks. -/
def readNumber (width : Nat) (text : List Char) : Option (Nat × List Char) :=
  let text := trimLeft text
  let digits := (text.take width).takeWhile Char.isDigit
  if digits.isEmpty then none else some (digitsValue digits, text.drop digits.length)

/-- A number of any length behind blanks. -/
def readLong (text : List Char) : Option (Nat × List Char) :=
  let digits := text.takeWhile Char.isDigit
  if digits.isEmpty then none else some (digitsValue digits, text.drop digits.length)

/-- A year: four digits at most, or a sign and any number of digits. -/
def readYear (text : List Char) : Option (Int × List Char) :=
  match trimLeft text with
  | '-' :: rest => (readLong rest).map fun (n, rest) => (-(n : Int), rest)
  | '+' :: rest => (readLong rest).map fun (n, rest) => ((n : Int), rest)
  | rest => (readNumber 4 rest).map fun (n, rest) => ((n : Int), rest)

/-- A character behind blanks. -/
def expect (c : Char) (text : List Char) : Option (List Char) :=
  match trimLeft text with
  | d :: rest => if c = d then some rest else none
  | [] => none

/-- A fraction behind a point, in nanoseconds; digits after the ninth are dropped. -/
def readFraction (text : List Char) : Option (Nat × List Char) :=
  match text with
  | '.' :: rest =>
    let digits := rest.takeWhile Char.isDigit
    let kept := digits.take 9
    if digits.isEmpty then none
    else some (digitsValue kept * Nat.pow 10 (9 - kept.length), rest.drop digits.length)
  | rest => some (0, rest)

/-- The sign of a zone; the mathematical minus sign counts. -/
def readZoneSign : List Char → Option (Int × List Char)
  | '+' :: rest => some (1, rest)
  | '-' :: rest => some (-1, rest)
  | '−' :: rest => some (-1, rest)
  | _ => none

/-- Exactly two digits. -/
def readPair : List Char → Option (Nat × List Char)
  | a :: b :: rest =>
    if a.isDigit && b.isDigit then some (digitsValue [a, b], rest) else none
  | _ => none

/-- A zone as minutes ahead of UTC. -/
def readZone (text : List Char) : Option (Int × List Char) :=
  match text with
  | 'Z' :: rest => some (0, rest)
  | 'z' :: rest => some (0, rest)
  | text =>
    if (text.take 3).map Char.toUpper = ['U', 'T', 'C'] then some (0, text.drop 3)
    else do
      let (sign, rest) ← readZoneSign text
      let (hours, rest) ← readPair rest
      let (minutes, rest) ← readPair (rest.dropWhile fun c => c = ':' || isBlankChar c)
      if hours < 24 ∧ minutes < 60 then some (sign * (60 * hours + minutes), rest) else none

/-- The instant of a local date and time, given the minutes that its zone is ahead of UTC. -/
def ofLocal? (date : Date) (hour minute second nano : Nat) (ahead : Int) : Option Instant :=
  if hour < 24 ∧ minute < 60 then
    let minutes : Int := 60 * hour + minute - ahead
    if h : second < 61 ∧ nano < 1000000000 then do
      let date ← date.shift? (minutes / 1440)
      some ⟨date, ⟨(minutes % 1440).toNat, by omega⟩, ⟨second, h.1⟩, ⟨nano, h.2⟩⟩
    else none
  else none

/-- The instant of a text with nothing but blanks around it. -/
def readChars? (text : List Char) : Option Instant := do
  let (year, rest) ← readYear text
  let rest ← expect '-' rest
  let (month, rest) ← readNumber 2 rest
  let rest ← expect '-' rest
  let (day, rest) ← readNumber 2 rest
  let rest ← match rest with
    | c :: rest => if c = 'T' ∨ c = 't' ∨ c = ' ' then some rest else none
    | [] => none
  let (hour, rest) ← readNumber 2 rest
  let rest ← expect ':' rest
  let (minute, rest) ← readNumber 2 rest
  let rest ← expect ':' rest
  let (second, rest) ← readNumber 2 rest
  let (nano, rest) ← readFraction rest
  let (ahead, rest) ← readZone (trimLeft rest)
  let date ← Date.of? year month day
  if (trimLeft rest).isEmpty then ofLocal? date hour minute second nano ahead else none

/-- The instant of a text. -/
def read? (text : String) : Option Instant := readChars? text.toList

end ReleaseGate.Instant
