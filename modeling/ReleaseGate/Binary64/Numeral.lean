import ReleaseGate.Binary64.Arithmetic

/-!
# Decimal numerals

A numeral is a sign, a whole number of digits and a power of ten. It denotes the nearest binary64
number, ties to even.

* `Numeral.toBinary64`: the number that a numeral denotes.
* `Numeral.read?`: digits with an optional point and an optional exponent, at least one digit.
* `Binary64.read?`: a numeral, or a word for infinity or not-a-number in any case.
-/

namespace ReleaseGate

/-- The value of a row of decimal digits. -/
def digitsValue (digits : List Char) : Nat :=
  digits.foldl (fun n c => 10 * n + (c.toNat - '0'.toNat)) 0

/-- The number `± digits * 10 ^ exponent`. -/
structure Numeral where
  negative : Bool
  digits : Nat
  exponent : Int
  deriving DecidableEq

namespace Numeral

/-- Powers of ten beyond this are infinite for every digit. -/
def largestPower : Nat := 400

/-- The number that a numeral denotes. A power of ten above `largestPower` is infinite and one that
leaves less than half a quantum is zero; both are decided before the power is computed. -/
def toBinary64 (x : Numeral) : Binary64 :=
  if x.digits = 0 then .signedZero x.negative
  else if 0 ≤ x.exponent then
    if x.exponent.toNat > largestPower then Binary64.infinity x.negative
    else Binary64.ofRatio x.negative (x.digits * Nat.pow 10 x.exponent.toNat * Binary64.unit) 1
  else
    let places := (-x.exponent).toNat
    if 3 * places > x.digits.log2 + Binary64.finest + 2 then .signedZero x.negative
    else Binary64.ofRatio x.negative (x.digits * Binary64.unit) (Nat.pow 10 places)

/-- A numeral from its parts: digits before and after the point, and an exponent. -/
def ofParts (negative : Bool) (whole fraction : List Char) (exponent : Int) : Numeral :=
  ⟨negative, digitsValue (whole ++ fraction), exponent - fraction.length⟩

/-- An optional sign: whether it is minus, and the rest. -/
def readSign : List Char → Bool × List Char
  | '+' :: rest => (false, rest)
  | '-' :: rest => (true, rest)
  | rest => (false, rest)

/-- The text of an exponent: an optional sign and at least one digit. -/
def readExponent? (text : List Char) : Option Int :=
  let (negative, digits) := readSign text
  if digits.isEmpty || !digits.all Char.isDigit then none
  else some (if negative then -(digitsValue digits : Int) else digitsValue digits)

/-- An exponent behind `e` or `E`, or nothing. -/
def readScale? : List Char → Option Int
  | [] => some 0
  | c :: rest => if c = 'e' ∨ c = 'E' then readExponent? rest else none

/-- Digits, an optional point with digits on at least one side of it, an optional exponent. -/
def readUnsigned? (negative : Bool) (text : List Char) : Option Numeral :=
  let whole := text.takeWhile Char.isDigit
  match text.dropWhile Char.isDigit with
  | '.' :: rest =>
    let fraction := rest.takeWhile Char.isDigit
    if whole.isEmpty && fraction.isEmpty then none
    else (readScale? (rest.dropWhile Char.isDigit)).map (ofParts negative whole fraction)
  | rest =>
    if whole.isEmpty then none else (readScale? rest).map (ofParts negative whole [])

/-- A numeral with an optional sign. -/
def read? (text : List Char) : Option Numeral :=
  let (negative, rest) := readSign text
  readUnsigned? negative rest

end Numeral

/-- A numeral, or `inf`, `infinity` or `nan` in any case, with an optional sign. -/
def Binary64.read? (text : List Char) : Option Binary64 :=
  let (negative, rest) := Numeral.readSign text
  let word := String.ofList (rest.map Char.toLower)
  if word = "inf" ∨ word = "infinity" then some (.infinity negative)
  else if word = "nan" then some .nan
  else (Numeral.readUnsigned? negative rest).map Numeral.toBinary64

end ReleaseGate
