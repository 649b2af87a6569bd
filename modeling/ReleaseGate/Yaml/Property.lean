import ReleaseGate.Yaml.Cursor
import ReleaseGate.Text.Hexadecimal

/-!
# Anchors, tags and directives in YAML

* `readName`: the name of an anchor or alias.
* `readTag`: a tag as a handle and what follows it; the handle is empty for a tag in full.
* `readDirective`: a line that starts with a percent sign.
-/

namespace ReleaseGate.Yaml

/-- The characters of a kind at the front. -/
def Cursor.takeWhile (kind : Char → Bool) (c : Cursor) : List Char × Cursor :=
  let found := c.rest.takeWhile kind
  (found, c.skipMany found.length)

/-! ## Names -/

/-- Whether a name may end before this. -/
def endsName (c : Option Char) : Bool :=
  endsWord c || c.any fun c => "?:,]\x7d%@\x60".toList.contains c

/-- The name of an anchor or alias, behind its indicator. -/
def readName (c : Cursor) : Option (String × Cursor) :=
  let (name, c) := c.takeWhile isNameChar
  if name.isEmpty || !endsName c.peek then none else some (String.ofList name, c)

/-! ## Tags -/

/-- A character of a tag besides those of a name. -/
def isTagChar (verbatim : Bool) (c : Char) : Bool :=
  isNameChar c || ";/?:@&=+$.!~*'()".toList.contains c || (verbatim && ",[]".toList.contains c)

/-- A byte written as a percent sign and two digits. -/
def readPercent (c : Cursor) : Option (Nat × Cursor) := do
  let high ← (c.peek 1).bind hexValue?
  let low ← (c.peek 2).bind hexValue?
  if c.peek = some '%' then some (16 * high + low, c.skipMany 3) else none

/-- The following bytes of a character in UTF-8, each with six bits of it. -/
def readTrailing : Nat → Nat → Cursor → Option (Nat × Cursor)
  | 0, found, c => some (found, c)
  | count + 1, found, c => do
    let (byte, c) ← readPercent c
    if byte / 64 = 2 then readTrailing count (64 * found + byte % 64) c else none

/-- A character written as the bytes of its UTF-8 form. -/
def readPercentChar (c : Cursor) : Option (Char × Cursor) := do
  let (byte, c) ← readPercent c
  let (n, c) ←
    if byte < 0x80 then some (byte, c)
    else if byte / 32 = 6 then readTrailing 1 (byte % 32) c
    else if byte / 16 = 14 then readTrailing 2 (byte % 16) c
    else if byte / 8 = 30 then readTrailing 3 (byte % 8) c
    else none
  if n.isValidChar then some (Char.ofNat n, c) else none

/-- The characters of a tag. The first argument bounds their count. -/
def readTagChars (verbatim : Bool) : Nat → List Char → Cursor → Option (List Char × Cursor)
  | 0, _, _ => none
  | fuel + 1, found, c =>
    match c.peek with
    | none => some (found, c)
    | some ch =>
      if ch = '%' then do
        let (char, c) ← readPercentChar c
        readTagChars verbatim fuel (found ++ [char]) c
      else if isTagChar verbatim ch then readTagChars verbatim fuel (found ++ [ch]) c.skip
      else some (found, c)

/-- A handle: an exclamation mark, and possibly a name and one more mark. -/
def readHandle (c : Cursor) : Option (List Char × Cursor) :=
  if c.peek ≠ some '!' then none
  else
    let (name, c) := c.skip.takeWhile isNameChar
    if c.peek = some '!' then some ('!' :: name ++ ['!'], c.skip) else some ('!' :: name, c)

/-- A tag as its handle and suffix. -/
structure Tag where
  handle : String
  suffix : String
  deriving DecidableEq

/-- Whether a handle has a second mark. -/
def isLongHandle (handle : List Char) : Bool :=
  2 ≤ handle.length && handle.getLast? == some '!'

/-- A tag. -/
def readTag (inFlow : Bool) (c : Cursor) : Option (Tag × Cursor) := do
  let (tag, c) ←
    if c.peek 1 = some '<' then do
      let (suffix, c) ← readTagChars true (c.rest.length + 1) [] (c.skipMany 2)
      if suffix.isEmpty || c.peek ≠ some '>' then none
      else some (⟨"", String.ofList suffix⟩, c.skip)
    else do
      let (handle, c) ← readHandle c
      if isLongHandle handle then do
        let (suffix, c) ← readTagChars false (c.rest.length + 1) [] c
        if suffix.isEmpty then none
        else some (Tag.mk (String.ofList handle) (String.ofList suffix), c)
      else do
        let (suffix, c) ← readTagChars false (c.rest.length + 1) (handle.drop 1) c
        if suffix.isEmpty then some (⟨"", "!"⟩, c) else some (⟨"!", String.ofList suffix⟩, c)
  if endsWord c.peek || (inFlow && c.peek == some ',') then some (tag, c) else none

/-! ## Directives -/

/-- A directive. -/
inductive Directive where
  | version (major minor : Nat)
  | tag (handle : String) (start : String)

/-- A number of at most nine digits. -/
def readVersionPart (c : Cursor) : Option (Nat × Cursor) :=
  let (digits, c) := c.takeWhile Char.isDigit
  if digits.isEmpty || 9 < digits.length then none
  else some (digits.foldl (fun n d => 10 * n + (d.toNat - '0'.toNat)) 0, c)

/-- What the name of a directive promises. -/
def readDirectiveContent (name : String) (c : Cursor) : Option (Directive × Cursor) :=
  let c := c.skipWhile isSpace
  if name = "YAML" then do
    let (major, c) ← readVersionPart c
    if c.peek ≠ some '.' then none
    else do
      let (minor, c) ← readVersionPart c.skip
      some (.version major minor, c)
  else if name = "TAG" then do
    let (handle, c) ← readHandle c
    if !(isLongHandle handle || handle.length = 1) || !c.peek.any isSpace then none
    else do
      let c := c.skipWhile isSpace
      let (start, c) ← readTagChars true (c.rest.length + 1) [] c
      if start.isEmpty || !endsWord c.peek then none
      else some (.tag (String.ofList handle) (String.ofList start), c)
  else none

/-- A directive with the rest of its line. -/
def readDirective (c : Cursor) : Option (Directive × Cursor) := do
  let (name, c) := c.skip.takeWhile isNameChar
  if name.isEmpty || !endsWord c.peek then none
  else do
    let (directive, c) ← readDirectiveContent (String.ofList name) c
    let c := c.skipWhile isSpace
    let c := if c.peek = some '#' then c.skipWhile (!isBreak ·) else c
    if endsLine c.peek then some (directive, c.skipLine) else none

end ReleaseGate.Yaml
