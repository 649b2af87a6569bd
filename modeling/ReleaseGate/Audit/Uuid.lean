import ReleaseGate.Text.Hexadecimal

/-!
# Universally unique identifiers

An identifier is a number of 128 bits. It is written as 32 lower-case hexadecimal digits in groups
of 8, 4, 4, 4 and 12.

* `Uuid.read?`: the grouped form, the same in braces or behind `urn:uuid:`, or 32 digits in a row,
  in either case.
* `Uuid.ofRandom`: a version 4 identifier from 128 random bits.
-/

namespace ReleaseGate

/-- An identifier of 128 bits. -/
structure Uuid where
  bits : Fin (Nat.pow 2 128)
  deriving DecidableEq

namespace Uuid

/-- The identifier of a number, modulo `2 ^ 128`. -/
def ofNat (n : Nat) : Uuid := ⟨⟨n % Nat.pow 2 128, Nat.mod_lt _ (Nat.two_pow_pos 128)⟩⟩

/-- The identifier in groups of digits. -/
def write (id : Uuid) : List Char :=
  let n := id.bits.val
  hexDigits 8 (n / Nat.pow 2 96) ++ '-' :: hexDigits 4 (n / Nat.pow 2 80) ++
    '-' :: hexDigits 4 (n / Nat.pow 2 64) ++ '-' :: hexDigits 4 (n / Nat.pow 2 48) ++
    '-' :: hexDigits 12 n

/-- The identifier in groups of digits, as a string. -/
def text (id : Uuid) : String := String.ofList id.write

/-- The grouped form: hyphens at four places, digits at the others. -/
def readGrouped? (text : List Char) : Option Uuid :=
  let digits := text.take 8 ++ (text.drop 9).take 4 ++ (text.drop 14).take 4 ++
    (text.drop 19).take 4 ++ text.drop 24
  if [8, 13, 18, 23].all (fun i => text[i]? == some '-') && digits.length == 32 then
    (hexNumber? digits).map ofNat
  else none

/-- The form in braces holds the grouped form, and so does the form with a name in front. -/
def readChars? (text : List Char) : Option Uuid :=
  if text.length = 32 then (hexNumber? text).map ofNat
  else if text.length = 38 then
    match text with
    | '\x7b' :: rest =>
      if rest.getLast? = some '\x7d' then readGrouped? rest.dropLast else none
    | _ => none
  else if text.length = 45 then
    if "urn:uuid:".toList.isPrefixOf text then readGrouped? (text.drop 9) else none
  else readGrouped? text

/-- The identifier of a text. -/
def read? (text : String) : Option Uuid := readChars? text.toList

/-- The version, which is the thirteenth digit. -/
def version (id : Uuid) : Nat := id.bits.val / Nat.pow 2 76 % 16

/-- A version 4 identifier: random bits but for the version and the two variant bits. -/
def ofRandom (bits : Nat) : Uuid :=
  let n := bits % Nat.pow 2 128
  let low := n % Nat.pow 2 62 + 2 * Nat.pow 2 62
  let middle := n / Nat.pow 2 64 % Nat.pow 2 12 + 4 * Nat.pow 2 12
  ofNat (n / Nat.pow 2 80 * Nat.pow 2 80 + middle * Nat.pow 2 64 + low)

end Uuid

end ReleaseGate
