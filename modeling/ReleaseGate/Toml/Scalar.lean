import ReleaseGate.Toml.Value
import ReleaseGate.Text.Hexadecimal
import ReleaseGate.Time.Date

/-!
# TOML strings, numbers, dates and times

Each reader takes one scalar from the front of a text and gives its value and the text behind it.

* `readQuoted`: strings of one line or several, with escapes or without.
* `readDateTime`, `readReal`, `readInteger`: what may start with a digit or a sign.
-/

namespace ReleaseGate.Toml

/-- A reader of something at the front of a text. -/
abbrev Reader (α : Type) := List Char → Option (α × List Char)

/-- A blank within a line. -/
def isSpace (c : Char) : Bool := c = ' ' || c = '\t'

/-- Drop leading blanks of the line. -/
def skipSpaces (text : List Char) : List Char := text.dropWhile isSpace

/-- Neither a control character nor a delete, but a tab. -/
def isPrintable (c : Char) : Bool := c = '\t' || (0x20 ≤ c.toNat && c.toNat ≠ 0x7F)

/-! ## Strings -/

/-- The number of hexadecimal digits, if it is a character. -/
def charOfHex? (digits : List Char) : Option Char := do
  let n ← hexNumber? digits
  if n.isValidChar then some (Char.ofNat n) else none

/-- The character of an escape of one letter. -/
def simpleEscape? : Char → Option Char
  | 'b' => some '\x08'
  | 't' => some '\t'
  | 'n' => some '\n'
  | 'f' => some '\x0c'
  | 'r' => some '\r'
  | '"' => some '"'
  | '\\' => some '\\'
  | _ => none

/-- Put a character before what a reader found. -/
def prepend (c : Char) (found : Option (List Char × List Char)) :
    Option (List Char × List Char) :=
  found.map fun (content, rest) => (c :: content, rest)

/-- The rest of a string of one line with escapes. -/
def readBasic : Reader (List Char)
  | '"' :: rest => some ([], rest)
  | '\\' :: 'u' :: a :: b :: c :: d :: rest => do
    prepend (← charOfHex? [a, b, c, d]) (readBasic rest)
  | '\\' :: 'U' :: a :: b :: c :: d :: e :: f :: g :: h :: rest => do
    prepend (← charOfHex? [a, b, c, d, e, f, g, h]) (readBasic rest)
  | '\\' :: e :: rest => do prepend (← simpleEscape? e) (readBasic rest)
  | c :: rest => if isPrintable c then prepend c (readBasic rest) else none
  | [] => none

/-- The rest of a string of one line without escapes. -/
def readLiteral : Reader (List Char)
  | '\'' :: rest => some ([], rest)
  | c :: rest => if isPrintable c then prepend c (readLiteral rest) else none
  | [] => none

/-- Up to two more quotes before the three that close a string belong to it. -/
def closeLines (quote : Char) : Reader (List Char)
  | a :: b :: rest =>
    if a = quote then if b = quote then some ([quote, quote], rest) else some ([quote], b :: rest)
    else some ([], a :: b :: rest)
  | [a] => if a = quote then some ([quote], []) else some ([], [a])
  | [] => some ([], [])

/-- Whether a text continues with nothing but blanks to the end of the line. -/
def endsLine (text : List Char) : Bool :=
  match skipSpaces text with
  | '\n' :: _ => true
  | '\r' :: '\n' :: _ => true
  | _ => false

/-- The rest of a string of several lines with escapes. While `skipping`, blanks and line ends are
left out: a backslash at the end of a line asks for that. -/
def readBasicLines (skipping : Bool) : Reader (List Char)
  | '"' :: '"' :: '"' :: rest => closeLines '"' rest
  | '\r' :: '\n' :: rest =>
    if skipping then readBasicLines true rest else prepend '\n' (readBasicLines false rest)
  | '\n' :: rest =>
    if skipping then readBasicLines true rest else prepend '\n' (readBasicLines false rest)
  | '\\' :: 'u' :: a :: b :: c :: d :: rest => do
    prepend (← charOfHex? [a, b, c, d]) (readBasicLines false rest)
  | '\\' :: 'U' :: a :: b :: c :: d :: e :: f :: g :: h :: rest => do
    prepend (← charOfHex? [a, b, c, d, e, f, g, h]) (readBasicLines false rest)
  | '\\' :: e :: rest =>
    if endsLine (e :: rest) then readBasicLines true (e :: rest)
    else do prepend (← simpleEscape? e) (readBasicLines false rest)
  | c :: rest =>
    if skipping && isSpace c then readBasicLines true rest
    else if isPrintable c then prepend c (readBasicLines false rest)
    else none
  | [] => none

/-- The rest of a string of several lines without escapes. -/
def readLiteralLines : Reader (List Char)
  | '\'' :: '\'' :: '\'' :: rest => closeLines '\'' rest
  | '\r' :: '\n' :: rest => prepend '\n' (readLiteralLines rest)
  | c :: rest =>
    if c = '\n' || isPrintable c then prepend c (readLiteralLines rest) else none
  | [] => none

/-- A line end right behind the opening quotes is left out. -/
def dropFirstLineEnd : List Char → List Char
  | '\n' :: rest => rest
  | '\r' :: '\n' :: rest => rest
  | rest => rest

/-- A string of one line. -/
def readLineString : Reader (List Char)
  | '"' :: rest => readBasic rest
  | '\'' :: rest => readLiteral rest
  | _ => none

/-- A string of any kind. -/
def readQuoted : Reader (List Char)
  | '"' :: '"' :: '"' :: rest => readBasicLines false (dropFirstLineEnd rest)
  | '\'' :: '\'' :: '\'' :: rest => readLiteralLines (dropFirstLineEnd rest)
  | text => readLineString text

/-! ## Numbers -/

/-- Digits behind a first one, with single underscores between digits; the underscores are
dropped. -/
def readMoreDigits (isDigit : Char → Bool) : List Char → List Char × List Char
  | '_' :: c :: rest =>
    if isDigit c then
      let (digits, rest) := readMoreDigits isDigit rest
      (c :: digits, rest)
    else ([], '_' :: c :: rest)
  | c :: rest =>
    if isDigit c then
      let (digits, rest) := readMoreDigits isDigit rest
      (c :: digits, rest)
    else ([], c :: rest)
  | [] => ([], [])

/-- At least one digit, with single underscores between digits. -/
def readDigits (isDigit : Char → Bool) : Reader (List Char)
  | c :: rest =>
    if isDigit c then
      let (digits, rest) := readMoreDigits isDigit rest
      some (c :: digits, rest)
    else none
  | [] => none

/-- A decimal whole number without leading zeros and without sign. -/
def readWhole : Reader (List Char)
  | '0' :: rest => some (['0'], rest)
  | text => readDigits Char.isDigit text

/-- An exponent, or nothing. -/
def readExponent : Reader Int
  | c :: rest =>
    if c = 'e' ∨ c = 'E' then do
      let (negative, digits) := Numeral.readSign rest
      let (digits, rest) ← readDigits Char.isDigit digits
      let n : Int := digitsValue digits
      some (if negative then -n else n, rest)
    else none
  | [] => none

/-- A number with a point or an exponent, not too large, or a word for infinity or not-a-number. -/
def readReal (text : List Char) : Option (Binary64 × List Char) :=
  let (negative, rest) := Numeral.readSign text
  match rest with
  | 'i' :: 'n' :: 'f' :: rest => some (.infinity negative, rest)
  | 'n' :: 'a' :: 'n' :: rest => some (.nan, rest)
  | _ => do
    let (whole, rest) ← readWhole rest
    let (fraction, exponent, rest) ← match rest with
      | '.' :: rest => do
        let (fraction, rest) ← readDigits Char.isDigit rest
        match readExponent rest with
        | some (exponent, rest) => some (fraction, exponent, rest)
        | none => some (fraction, 0, rest)
      | rest => do
        let (exponent, rest) ← readExponent rest
        some ([], exponent, rest)
    let x := (Numeral.ofParts negative whole fraction exponent).toBinary64
    if x = .infinity false then none else some (x, rest)

/-- A hexadecimal digit. -/
def isHexDigit (c : Char) : Bool := (hexValue? c).isSome

/-- The value of digits in a base. -/
def valueInBase (base : Nat) (digits : List Char) : Nat :=
  digits.foldl (fun n c => base * n + (hexValue? c).getD 0) 0

/-- A whole number of 64 bits with sign. -/
def fitInteger (value : Int) (rest : List Char) : Option (Int × List Char) :=
  if -0x8000000000000000 ≤ value ∧ value < 0x8000000000000000 then some (value, rest) else none

/-- A whole number: decimal with an optional sign, or hexadecimal, octal or binary without. -/
def readInteger : Reader Int
  | '0' :: 'x' :: rest => do
    let (digits, rest) ← readDigits isHexDigit rest
    fitInteger (valueInBase 16 digits) rest
  | '0' :: 'o' :: rest => do
    let (digits, rest) ← readDigits (fun c => '0' ≤ c && c ≤ '7') rest
    fitInteger (valueInBase 8 digits) rest
  | '0' :: 'b' :: rest => do
    let (digits, rest) ← readDigits (fun c => c = '0' || c = '1') rest
    fitInteger (valueInBase 2 digits) rest
  | text => do
    let (negative, rest) := Numeral.readSign text
    let (digits, rest) ← readWhole rest
    let n : Int := digitsValue digits
    fitInteger (if negative then -n else n) rest

/-! ## Dates and times -/

/-- A number of exactly so many digits within bounds. -/
def readField (width least most : Nat) (text : List Char) : Option (Nat × List Char) :=
  let digits := text.take width
  let n := digitsValue digits
  if digits.length = width ∧ digits.all Char.isDigit ∧ least ≤ n ∧ n ≤ most then
    some (n, text.drop width)
  else none

/-- A character at the front. -/
def readChar (c : Char) : List Char → Option (List Char)
  | d :: rest => if c = d then some rest else none
  | [] => none

/-- A date that the calendar has. -/
def readDate (text : List Char) : Option (List Char) := do
  let (year, rest) ← readField 4 0 9999 text
  let (month, rest) ← readField 2 1 12 (← readChar '-' rest)
  let (_, rest) ← readField 2 1 (daysInMonth year month) (← readChar '-' rest)
  some rest

/-- A time of day to the second, with an optional fraction. -/
def readTime (text : List Char) : Option (List Char) := do
  let (_, rest) ← readField 2 0 23 text
  let (_, rest) ← readField 2 0 59 (← readChar ':' rest)
  let (_, rest) ← readField 2 0 60 (← readChar ':' rest)
  match rest with
  | '.' :: c :: tail =>
    if c.isDigit then some (tail.dropWhile Char.isDigit) else some rest
  | rest => some rest

/-- A zone, or nothing. -/
def readZone (text : List Char) : List Char :=
  match text with
  | 'Z' :: rest => rest
  | 'z' :: rest => rest
  | c :: rest =>
    if c = '+' ∨ c = '-' then
      let zone := do
        let (_, rest) ← readField 2 0 23 rest
        let (_, rest) ← readField 2 0 59 (← readChar ':' rest)
        some rest
      zone.getD (c :: rest)
    else c :: rest
  | [] => []

/-- A date, a time, or both with an optional zone; the text behind it. -/
def readDateTime (text : List Char) : Option (List Char) :=
  match readDate text with
  | none => readTime text
  | some rest =>
    match rest with
    | c :: tail =>
      if c = 'T' ∨ c = 't' ∨ c = ' ' then
        match readTime tail with
        | some rest => some (readZone rest)
        | none => some (c :: tail)
      else some (c :: tail)
    | [] => some []

/-- A value that starts with a digit or a sign. -/
def readNumber (text : List Char) : Option (Value × List Char) :=
  match readDateTime text with
  | some rest => some (.dateTime, rest)
  | none =>
    match readReal text with
    | some (x, rest) => some (.real x, rest)
    | none => (readInteger text).map fun (i, rest) => (.integer i, rest)

end ReleaseGate.Toml
