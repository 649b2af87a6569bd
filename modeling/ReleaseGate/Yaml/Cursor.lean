/-!
# Places in a YAML text

A cursor is the rest of a text with the line and column where it starts. Five characters end a
line; a carriage return with a line feed ends one line.

* `Cursor.skip`, `Cursor.skipLine`, `Cursor.skipWhile`: going on.
* `lineBreak`: what a line end contributes to a scalar.
-/

namespace ReleaseGate.Yaml

/-- Whether a character ends a line. -/
def isBreak (c : Char) : Bool :=
  c = '\n' || c = '\r' || c = '\u0085' || c = '\u2028' || c = '\u2029'

/-- A blank or a tab. -/
def isSpace (c : Char) : Bool := c = ' ' || c = '\t'

/-- The end of the text, a line end, a blank or a tab. -/
def endsWord : Option Char → Bool
  | none => true
  | some c => isSpace c || isBreak c

/-- The end of the text or of a line. -/
def endsLine : Option Char → Bool
  | none => true
  | some c => isBreak c

/-- A character that a YAML text may hold. -/
def isAllowed (c : Char) : Bool :=
  let n := c.toNat
  n = 0x09 || n = 0x0A || n = 0x0D || (0x20 ≤ n && n ≤ 0x7E) || n = 0x85 ||
    (0xA0 ≤ n && n ≤ 0xD7FF) || (0xE000 ≤ n && n ≤ 0xFFFD) || 0x10000 ≤ n

/-- A character of a name. -/
def isNameChar (c : Char) : Bool := c.isAlphanum || c = '_' || c = '-'

/-- The rest of a text, and where it starts. -/
structure Cursor where
  rest : List Char
  line : Nat := 0
  column : Nat := 0
  /-- Characters before the rest. -/
  offset : Nat := 0

namespace Cursor

/-- The `n`-th character of the rest. -/
def peek (c : Cursor) (n : Nat := 0) : Option Char := c.rest[n]?

/-- Behind the next character, within a line. -/
def skip (c : Cursor) : Cursor :=
  { c with rest := c.rest.drop 1, column := c.column + 1, offset := c.offset + 1 }

/-- Behind the next `n` characters of the line. -/
def skipMany (c : Cursor) (n : Nat) : Cursor :=
  { c with rest := c.rest.drop n, column := c.column + n, offset := c.offset + n }

/-- Behind all next characters of a kind, none of which ends a line. -/
def skipWhile (kind : Char → Bool) (c : Cursor) : Cursor :=
  c.skipMany (c.rest.takeWhile kind).length

/-- Behind a line end. -/
def skipLine (c : Cursor) : Cursor :=
  match c.rest with
  | '\r' :: '\n' :: rest => ⟨rest, c.line + 1, 0, c.offset + 2⟩
  | _ :: rest => ⟨rest, c.line + 1, 0, c.offset + 1⟩
  | [] => c

/-- What the line end at the front contributes to a scalar: a line feed, but for the two Unicode
separators, which stay. -/
def lineBreak (c : Cursor) : List Char :=
  match c.rest with
  | '\u2028' :: _ => ['\u2028']
  | '\u2029' :: _ => ['\u2029']
  | _ :: _ => ['\n']
  | [] => []

/-- Whether the rest starts with three characters that stand alone. -/
def startsWithMark (c : Cursor) (mark : Char) : Bool :=
  c.peek 0 == some mark && c.peek 1 == some mark && c.peek 2 == some mark && endsWord (c.peek 3)

/-- Whether a line starts here with the mark of a document's start or end. -/
def atDocumentMark (c : Cursor) : Bool :=
  c.column == 0 && (c.startsWithMark '-' || c.startsWithMark '.')

end Cursor

end ReleaseGate.Yaml
