import ReleaseGate.Json.Tree
import ReleaseGate.Text.Hexadecimal

/-!
# Reading JSON text

The reader takes strict JSON: no trailing text, no leading zeros, no control characters in strings.
Nothing is looked up and no number is computed: that is left to whoever knows what the tree is
about, so that unknown fields are checked for their form only.

* `readString`: the rest of a string behind its opening quote.
* `readNumeral`: the longest numeral at the front.
* `Tree.read?`: the tree of a text.
-/

namespace ReleaseGate.Json

/-- Blanks between tokens. -/
def isBlank (c : Char) : Bool := c = ' ' || c = '\t' || c = '\n' || c = '\r'

/-- Drop leading blanks. -/
def skipBlanks (text : List Char) : List Char := text.dropWhile isBlank

/-! ## Strings -/

/-- A part of a string: a character, or a 16-bit unit given by an escape. -/
inductive StringPart where
  | char (c : Char)
  | unit (value : Nat)

/-- The character of an escape of one letter. -/
def simpleEscape? : Char → Option Char
  | '"' => some '"'
  | '\\' => some '\\'
  | '/' => some '/'
  | 'b' => some '\x08'
  | 'f' => some '\x0c'
  | 'n' => some '\n'
  | 'r' => some '\r'
  | 't' => some '\t'
  | _ => none

/-- The parts up to the closing quote, and the text behind it. -/
def readParts : List Char → Option (List StringPart × List Char)
  | [] => none
  | '"' :: rest => some ([], rest)
  | '\\' :: 'u' :: a :: b :: c :: d :: rest => do
    let value ← hexNumber? [a, b, c, d]
    let (parts, rest) ← readParts rest
    some (.unit value :: parts, rest)
  | '\\' :: e :: rest => do
    let c ← simpleEscape? e
    let (parts, rest) ← readParts rest
    some (.char c :: parts, rest)
  | c :: rest =>
    if c.toNat < 0x20 ∨ c = '\\' then none
    else do
      let (parts, rest) ← readParts rest
      some (.char c :: parts, rest)

/-- The text of parts: two units in a row may be a surrogate pair; a half pair is no text. -/
def joinParts : List StringPart → Option (List Char)
  | [] => some []
  | .char c :: rest => (joinParts rest).map (c :: ·)
  | .unit high :: .unit low :: rest =>
    if 0xD800 ≤ high ∧ high < 0xDC00 then
      if 0xDC00 ≤ low ∧ low < 0xE000 then
        (joinParts rest).map
          (Char.ofNat (0x10000 + (high - 0xD800) * 0x400 + (low - 0xDC00)) :: ·)
      else none
    else if 0xDC00 ≤ high ∧ high < 0xE000 then none
    else (joinParts (.unit low :: rest)).map (Char.ofNat high :: ·)
  | .unit value :: rest =>
    if 0xD800 ≤ value ∧ value < 0xE000 then none
    else (joinParts rest).map (Char.ofNat value :: ·)

/-- The string behind an opening quote, and the text behind its closing quote. -/
def readString (text : List Char) : Option (Option String × List Char) := do
  let (parts, rest) ← readParts text
  some ((joinParts parts).map String.ofList, rest)

/-! ## Numerals -/

/-- Digits at the front. -/
def spanDigits (text : List Char) : List Char × List Char :=
  (text.takeWhile Char.isDigit, text.dropWhile Char.isDigit)

/-- At least one digit at the front. -/
def readDigits (text : List Char) : Option (List Char × List Char) :=
  let (digits, rest) := spanDigits text
  if digits.isEmpty then none else some (digits, rest)

/-- Digits without a leading zero. -/
def readWhole : List Char → Option (List Char × List Char)
  | '0' :: rest =>
    match rest with
    | c :: _ => if c.isDigit then none else some (['0'], rest)
    | [] => some (['0'], rest)
  | text => readDigits text

/-- A point and digits, or nothing. -/
def readFraction : List Char → Option (List Char × List Char)
  | '.' :: rest => do
    let (digits, rest) ← readDigits rest
    some ('.' :: digits, rest)
  | text => some ([], text)

/-- An exponent, or nothing. -/
def readExponent : List Char → Option (List Char × List Char)
  | c :: rest =>
    if c = 'e' ∨ c = 'E' then
      match rest with
      | s :: tail =>
        if s = '+' ∨ s = '-' then do
          let (digits, tail) ← readDigits tail
          some (c :: s :: digits, tail)
        else do
          let (digits, rest) ← readDigits rest
          some (c :: digits, rest)
      | [] => none
    else some ([], c :: rest)
  | [] => some ([], [])

/-- A numeral without sign. -/
def readMagnitude (text : List Char) : Option (List Char × List Char) := do
  let (whole, rest) ← readWhole text
  let (fraction, rest) ← readFraction rest
  let (exponent, rest) ← readExponent rest
  some (whole ++ fraction ++ exponent, rest)

/-- The longest numeral at the front, and the text behind it. -/
def readNumeral : List Char → Option (List Char × List Char)
  | '-' :: rest => do
    let (spelling, rest) ← readMagnitude rest
    some ('-' :: spelling, rest)
  | text => readMagnitude text

/-! ## Trees -/

/-- The text behind a word at the front. -/
def dropWord (word : String) (text : List Char) : Option (List Char) :=
  if word.toList.isPrefixOf text then some (text.drop word.length) else none

namespace Tree

mutual

/-- A tree at the front, behind blanks. The first argument bounds the depth of calls. -/
def readTree : Nat → List Char → Option (Tree × List Char)
  | 0, _ => none
  | fuel + 1, text =>
    match skipBlanks text with
    | '"' :: rest => do
      let (content, rest) ← readString rest
      some (string content, rest)
    | '[' :: rest =>
      match skipBlanks rest with
      | ']' :: rest => some (array [], rest)
      | rest => do
        let (items, rest) ← readItems fuel rest
        some (array items, rest)
    | '\x7b' :: rest =>
      match skipBlanks rest with
      | '\x7d' :: rest => some (object [], rest)
      | rest => do
        let (fields, rest) ← readFields fuel rest
        some (object fields, rest)
    | 'n' :: rest => (dropWord "ull" rest).map (null, ·)
    | 't' :: rest => (dropWord "rue" rest).map (bool true, ·)
    | 'f' :: rest => (dropWord "alse" rest).map (bool false, ·)
    | rest => do
      let (spelling, rest) ← readNumeral rest
      some (numeral spelling, rest)

/-- One or more items, and the closing bracket. -/
def readItems : Nat → List Char → Option (List Tree × List Char)
  | 0, _ => none
  | fuel + 1, text => do
    let (item, rest) ← readTree fuel text
    match skipBlanks rest with
    | ',' :: rest => do
      let (items, rest) ← readItems fuel rest
      some (item :: items, rest)
    | ']' :: rest => some ([item], rest)
    | _ => none

/-- One or more fields, and the closing brace. -/
def readFields : Nat → List Char → Option (List (Option String × Tree) × List Char)
  | 0, _ => none
  | fuel + 1, text =>
    match skipBlanks text with
    | '"' :: rest => do
      let (key, rest) ← readString rest
      match skipBlanks rest with
      | ':' :: rest => do
        let (value, rest) ← readTree fuel rest
        match skipBlanks rest with
        | ',' :: rest => do
          let (fields, rest) ← readFields fuel rest
          some ((key, value) :: fields, rest)
        | '\x7d' :: rest => some ([(key, value)], rest)
        | _ => none
      | _ => none
    | _ => none

end

/-- The tree of a text, with nothing but blanks around it. Each call of the reader but the last
takes at least one character, so twice the length of the text is depth enough. -/
def read? (text : String) : Option Tree := do
  let chars := text.toList
  let (tree, rest) ← readTree (2 * chars.length + 1) chars
  if (skipBlanks rest).isEmpty then some tree else none

end Tree

end ReleaseGate.Json
