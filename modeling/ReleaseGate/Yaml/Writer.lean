import ReleaseGate.Binary64.Shortest
import ReleaseGate.Content
import ReleaseGate.Text.Hexadecimal
import ReleaseGate.Yaml.Node

/-!
# Writing YAML text

One item or field a line, two blanks deeper per level; the items of a list stand no deeper than the
field that holds it. A text is written without quotes if it reads back as that text.

* `layout`: whether a text is written plain, between single or double quotes, or as lines below.
* `yamlText`: the text of a content.
-/

namespace ReleaseGate.Yaml

/-- How YAML spells numbers: like JSON, but without a plus before an exponent. -/
def realStyle : RealStyle where
  tie := .toEven
  positional e := -5 ≤ e && e < 16
  wholeMark := ".0".toList
  plusMark := []
  infinity := ".inf".toList
  nan := ".nan".toList

/-! ## Texts that look like something else -/

/-- The words for truth values. -/
def isFlagWord (text : String) : Bool :=
  ["true", "True", "TRUE", "false", "False", "FALSE"].contains text

/-- The value of digits in a base, if there are any and all belong to it. -/
def valueInBase? (base : Nat) (digits : List Char) : Option Nat :=
  if digits.isEmpty then none
  else digits.foldlM (fun n c =>
    (hexValue? c).bind fun d => if d < base then some (base * n + d) else none) 0

/-- The base that a marked numeral has. -/
def baseOf? : List Char → Option (Nat × List Char)
  | '0' :: 'x' :: digits => some (16, digits)
  | '0' :: 'o' :: digits => some (8, digits)
  | '0' :: 'b' :: digits => some (2, digits)
  | _ => none

/-- Whether digits behind the mark of a base are a whole number of at most 128 bits. -/
def isBasedNumeral (text : List Char) : Bool :=
  let (limit, unsigned) : Nat × List Char := match text with
    | '-' :: rest => (Nat.pow 2 127, rest)
    | '+' :: rest => (Nat.pow 2 128 - 1, rest)
    | rest => (Nat.pow 2 128 - 1, rest)
  (baseOf? unsigned).any fun (base, digits) => (valueInBase? base digits).any (· ≤ limit)

/-- Whether a text is more than one digit and starts with zero. -/
def isPaddedDigits (text : List Char) : Bool :=
  let digits := match text with
    | '-' :: rest => rest
    | '+' :: rest => rest
    | rest => rest
  2 ≤ digits.length && digits.head? == some '0' && digits.all Char.isDigit

/-- Whether a text without quotes would be read as something else. -/
def isAmbiguous (text : String) : Bool :=
  Node.isNullWord text || isFlagWord text || isBasedNumeral text.toList ||
    isPaddedDigits text.toList || (Node.realOfText? text).isSome

/-! ## Layouts -/

/-- A character that is written as itself. -/
def isPrintable (c : Char) : Bool :=
  let n := c.toNat
  n = 0x0A || (0x20 ≤ n && n ≤ 0x7E) || (0xA0 ≤ n && n ≠ 0xFEFF && n ≠ 0xFFFE && n ≠ 0xFFFF)

/-- A pair of neighbours in a text. -/
def hasPair (p q : Char → Bool) : List Char → Bool
  | a :: b :: rest => (p a && q b) || hasPair p q (b :: rest)
  | _ => false

/-- Whether an indicator stands where it would end or change a plain scalar. -/
def hasIndicator (text : List Char) : Bool :=
  let first := text.head?
  let apart := endsWord text[1]?
  text.take 3 = "---".toList || text.take 3 = "...".toList ||
    first.any (fun c => "#,[]\x7b\x7d&*!|>'\"%@\x60".toList.contains c) ||
    (apart && first.any (fun c => c = '?' || c = ':' || c = '-')) ||
    hasPair (· = ':') (fun c => endsWord (some c)) text || text.getLast? = some ':' ||
    hasPair (fun c => endsWord (some c)) (· = '#') text

/-- How a text is written. -/
inductive Layout where
  | plain
  | single
  | double
  | lines
  deriving DecidableEq

/-- A text with a character that is not printable, or with a blank before a line end, needs
escapes. -/
def needsEscapes (text : List Char) : Bool :=
  !text.all isPrintable || hasPair (· = ' ') isBreak text

/-- Whether a text needs quotes, though no escapes. -/
def needsQuotes (text : List Char) : Bool :=
  text.any isBreak || text.head? == some ' ' || text.getLast? == some ' ' || hasIndicator text

/-- The layout of a text. One with line feeds is written as lines, unless it ends in a blank. -/
def layout (text : String) : Layout :=
  let chars := text.toList
  if needsEscapes chars then .double
  else if chars.contains '\n' then if chars.getLast? = some ' ' then .double else .lines
  else if hasPair isBreak (· = ' ') chars then .double
  else if isAmbiguous text || needsQuotes chars then .single
  else .plain

/-! ## Scalars -/

/-- The blanks before a line. -/
def indentation (indent : Nat) : List Char := List.replicate indent ' '

/-- The characters of a text, with the indentation where a new line starts with another
character. -/
def writeIndented (indent : Nat) (write : Char → List Char) : (atStart : Bool) → List Char →
    List Char
  | _, [] => []
  | atStart, c :: rest =>
    if isBreak c then c :: writeIndented indent write true rest
    else (if atStart then indentation indent else []) ++ write c ++
      writeIndented indent write false rest

/-- The letter of an escape. -/
def escapeLetter? : Char → Option Char
  | '\x00' => some '0'
  | '\x07' => some 'a'
  | '\x08' => some 'b'
  | '\t' => some 't'
  | '\n' => some 'n'
  | '\x0b' => some 'v'
  | '\x0c' => some 'f'
  | '\r' => some 'r'
  | '\x1b' => some 'e'
  | '"' => some '"'
  | '\\' => some '\\'
  | '\u0085' => some 'N'
  | '\u2028' => some 'L'
  | '\u2029' => some 'P'
  | _ => none

/-- What stands for a character between double quotes. -/
def escape (c : Char) : List Char :=
  match escapeLetter? c with
  | some letter => ['\\', letter]
  | none =>
    if isPrintable c then [c]
    else
      let digits (width : Nat) : List Char := (hexDigits width c.toNat).map Char.toUpper
      if c.toNat ≤ 0xFF then '\\' :: 'x' :: digits 2
      else if c.toNat ≤ 0xFFFF then '\\' :: 'u' :: digits 4
      else '\\' :: 'U' :: digits 8

/-- A text between single quotes. -/
def writeSingle (indent : Nat) (text : List Char) : List Char :=
  let ending := if text.getLast?.any isBreak then indentation indent else []
  let write (c : Char) : List Char := if c = '\'' then ['\'', '\''] else [c]
  '\'' :: writeIndented indent write false text ++ ending ++ ['\'']

/-- The header of a text written as lines: a hint if the first line starts with a blank or is
empty, and what happens to the line ends behind the last line. -/
def linesHeader (text : List Char) : List Char :=
  let hint := if text.head?.any (fun c => c = ' ' || isBreak c) then ['2'] else []
  let chomping := match text.reverse with
    | last :: before =>
      if !isBreak last then ['-'] else if before.head?.all isBreak then ['+'] else []
    | [] => ['-']
  '|' :: hint ++ chomping ++ ['\n']

/-- A text as lines below its header. -/
def writeLines (indent : Nat) (text : List Char) : List Char :=
  let ending := if text.getLast?.any isBreak then [] else ['\n']
  linesHeader text ++ writeIndented indent (fun c => [c]) true text ++ ending

/-- A text and the end of its line. -/
def writeText (indent : Nat) (text : String) : List Char :=
  let chars := text.toList
  match layout text with
  | .plain => chars ++ ['\n']
  | .single => writeSingle indent chars ++ ['\n']
  | .double => '"' :: chars.flatMap escape ++ ['"', '\n']
  | .lines => writeLines indent chars

/-! ## Contents -/

/-- A whole number. -/
def writeWhole (value : Int) : List Char :=
  (if value < 0 then ['-'] else []) ++ decimalDigits value.natAbs

/-- A key, which stands on one line. -/
def writeKey (key : String) : List Char :=
  match layout key with
  | .plain => key.toList
  | .single => if key.toList.any isBreak then '"' :: key.toList.flatMap escape ++ ['"']
    else writeSingle 0 key.toList
  | _ => '"' :: key.toList.flatMap escape ++ ['"']

/-- Whether a content takes lines of its own. -/
def isBlock : Content → Bool
  | .list (_ :: _) => true
  | .record (_ :: _) => true
  | _ => false

mutual

/-- The lines of a content at an indentation, up to and with the last line end. -/
def writeLinesOf (indent : Nat) : Content → List Char
  | .null => "null\n".toList
  | .flag true => "true\n".toList
  | .flag false => "false\n".toList
  | .whole value => writeWhole value ++ ['\n']
  | .real x => realStyle.write x ++ ['\n']
  | .text text => writeText indent text
  | .list [] => "[]\n".toList
  | .list (item :: rest) => writeItems indent (item :: rest)
  | .record [] => "\x7b\x7d\n".toList
  | .record (field :: rest) => writeFields indent (field :: rest)

/-- Items, each behind a dash. -/
def writeItems (indent : Nat) : List Content → List Char
  | [] => []
  | item :: rest =>
    let lines := writeLinesOf (indent + 2) item
    indentation indent ++ '-' :: ' ' ::
      (if isBlock item then lines.drop (indent + 2) else lines) ++ writeItems indent rest

/-- Fields, each on a line of its own. A list below a field stands no deeper than the field. -/
def writeFields (indent : Nat) : List (String × Content) → List Char
  | [] => []
  | (key, value) :: rest =>
    let lines := match value with
      | .list (item :: items) => '\n' :: writeItems indent (item :: items)
      | value => (if isBlock value then '\n' else ' ') :: writeLinesOf (indent + 2) value
    indentation indent ++ writeKey key ++ ':' :: lines ++ writeFields indent rest

end

/-- The text of a content. -/
def yamlText (content : Content) : String :=
  String.ofList (writeLinesOf (if isBlock content then 0 else 2) content)

end ReleaseGate.Yaml
