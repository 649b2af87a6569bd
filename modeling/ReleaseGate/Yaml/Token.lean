import ReleaseGate.Yaml.Property
import ReleaseGate.Yaml.Scalar

/-!
# Tokens of a YAML text

The tokens show what indentation means: a block opens where a line goes deeper and closes where one
comes back. Whether a node is the key of a mapping is known only at the colon behind it, so the
place before each node is remembered until then, and the tokens that the key needs go there.

* `Scan.step`: the next token of a text, with the blocks that it opens or closes.
* `Token.readAll?`: all tokens of a text.
-/

namespace ReleaseGate.Yaml

/-- How a scalar is written. -/
inductive ScalarStyle where
  | plain
  | quoted
  | literal
  | folded
  deriving DecidableEq

/-- The parts of a text that make up its nodes. -/
inductive Token where
  | directive (directive : Directive)
  | documentStart
  | documentEnd
  | blockSequence
  | blockMapping
  | blockEnd
  | flowSequence
  | flowSequenceEnd
  | flowMapping
  | flowMappingEnd
  | blockEntry
  | flowEntry
  | key
  | value
  | alias (name : String)
  | anchor (name : String)
  | tag (tag : Tag)
  | scalar (style : ScalarStyle) (content : String)

/-- The place before a node that may turn out to be a key. -/
structure KeyPlace where
  /-- How many tokens stand before it. -/
  index : Nat
  line : Nat
  column : Nat
  offset : Nat
  /-- Nothing but a key may stand there. -/
  required : Bool

/-- A key and its colon stand in one line, and not farther apart than this. -/
def longestKey : Nat := 1024

/-- Whether a place is too far back for a colon at the cursor. -/
def KeyPlace.isStale (place : KeyPlace) (c : Cursor) : Bool :=
  place.line < c.line || place.offset + longestKey < c.offset

/-- A text of which a part has become tokens. -/
structure Scan where
  cursor : Cursor
  tokens : Array Token := #[]
  /-- The columns of the open blocks, innermost first. -/
  blocks : List Nat := []
  /-- A key may start here. -/
  keyAllowed : Bool := true
  /-- The last node of the innermost collection, while it may be a key. -/
  candidate : Option KeyPlace := none
  /-- The same for each collection around an open bracket or brace. -/
  outer : List (Option KeyPlace) := []

namespace Scan

/-- Inside brackets or braces. -/
def inFlow (s : Scan) : Bool := !s.outer.isEmpty

/-- One more token. -/
def push (s : Scan) (token : Token) : Scan := { s with tokens := s.tokens.push token }

/-- Whether a column is deeper than the innermost block. -/
def isDeeper (s : Scan) (column : Nat) : Bool := s.blocks.head?.all (· < column)

/-! ## Blocks -/

/-- Open a block at a deeper column, its token at the given place. -/
def openBlock (s : Scan) (column index : Nat) (token : Token) : Scan :=
  if s.inFlow || !s.isDeeper column then s
  else { s with
    blocks := column :: s.blocks
    tokens := s.tokens.insertIdxIfInBounds index token }

/-- Open a block at the cursor. -/
def openBlockHere (s : Scan) (token : Token) : Scan :=
  s.openBlock s.cursor.column s.tokens.size token

/-- Close the blocks that go deeper than a column. -/
def closeBlocks (column : Nat) (s : Scan) : Scan :=
  if s.inFlow then s
  else
    let closed := s.blocks.takeWhile (column < ·)
    { s with
      blocks := s.blocks.drop closed.length
      tokens := closed.foldl (fun tokens _ => tokens.push .blockEnd) s.tokens }

/-- Close all blocks. -/
def closeAll (s : Scan) : Scan :=
  if s.inFlow then s
  else { s with
    blocks := []
    tokens := s.blocks.foldl (fun tokens _ => tokens.push .blockEnd) s.tokens }

/-! ## Keys -/

/-- The last node is no key. -/
def dropCandidate (s : Scan) : Option Scan :=
  if s.candidate.any (·.required) then none else some { s with candidate := none }

/-- Drop a place if it is too far back. -/
def freshPlace (c : Cursor) : Option KeyPlace → Option (Option KeyPlace)
  | none => some none
  | some place =>
    if place.isStale c then if place.required then none else some none else some (some place)

/-- Drop the places that are too far back. -/
def dropStale (s : Scan) : Option Scan := do
  let candidate ← freshPlace s.cursor s.candidate
  let outer ← s.outer.mapM (freshPlace s.cursor)
  some { s with candidate, outer }

/-- The node that starts here may be a key. -/
def offerKey (s : Scan) : Option Scan :=
  if !s.keyAllowed then some s
  else do
    let s ← s.dropCandidate
    let c := s.cursor
    let required := !s.inFlow && s.blocks.head? == some c.column
    some { s with candidate := some ⟨s.tokens.size, c.line, c.column, c.offset, required⟩ }

/-! ## Tokens one by one -/

/-- Blanks, comments and line ends before a token. In a new line of a block a key may start. -/
def skipBlanks : Nat → Scan → Scan
  | 0, s => s
  | fuel + 1, s =>
    let c := s.cursor
    let c := if c.column = 0 ∧ c.peek = some '\ufeff' then c.skip else c
    let c := c.skipWhile fun ch => ch = ' ' || (ch = '\t' && (s.inFlow || !s.keyAllowed))
    let c := if c.peek = some '#' then c.skipWhile (!isBreak ·) else c
    if c.peek.any isBreak then
      skipBlanks fuel { s with cursor := c.skipLine, keyAllowed := s.keyAllowed || !s.inFlow }
    else { s with cursor := c }

/-- The start or end of a document. -/
def documentMark (token : Token) (s : Scan) : Option Scan := do
  let s ← s.closeAll.dropCandidate
  some { s.push token with keyAllowed := false, cursor := s.cursor.skipMany 3 }

/-- A directive. -/
def directive (s : Scan) : Option Scan := do
  let s ← s.closeAll.dropCandidate
  let (directive, cursor) ← readDirective s.cursor
  some { s.push (.directive directive) with keyAllowed := false, cursor }

/-- An opening bracket or brace. -/
def openFlow (token : Token) (s : Scan) : Option Scan := do
  let s ← s.offerKey
  some { s.push token with
    outer := s.candidate :: s.outer
    candidate := none
    keyAllowed := true
    cursor := s.cursor.skip }

/-- A closing bracket or brace. -/
def closeFlow (token : Token) (s : Scan) : Option Scan := do
  let s ← s.dropCandidate
  some { s.push token with
    candidate := s.outer.head?.join
    outer := s.outer.drop 1
    keyAllowed := false
    cursor := s.cursor.skip }

/-- A comma between brackets or braces. -/
def flowEntry (s : Scan) : Option Scan := do
  let s ← s.dropCandidate
  some { s.push .flowEntry with keyAllowed := true, cursor := s.cursor.skip }

/-- The dash before an item. -/
def blockEntry (s : Scan) : Option Scan :=
  if !s.inFlow && !s.keyAllowed then none
  else do
    let s ← (s.openBlockHere .blockSequence).dropCandidate
    some { s.push .blockEntry with keyAllowed := true, cursor := s.cursor.skip }

/-- The question mark before a key. -/
def explicitKey (s : Scan) : Option Scan :=
  if !s.inFlow && !s.keyAllowed then none
  else do
    let s ← (s.openBlockHere .blockMapping).dropCandidate
    some { s.push .key with keyAllowed := !s.inFlow, cursor := s.cursor.skip }

/-- The colon before a value. The node before it, if it can be one, is the key. -/
def value (s : Scan) : Option Scan :=
  match s.candidate with
  | some place =>
    let s := { s with tokens := s.tokens.insertIdxIfInBounds place.index .key }
    let s := s.openBlock place.column place.index .blockMapping
    some { s.push .value with candidate := none, keyAllowed := false, cursor := s.cursor.skip }
  | none =>
    if !s.inFlow && !s.keyAllowed then none
    else
      let s := s.openBlockHere .blockMapping
      some { s.push .value with keyAllowed := !s.inFlow, cursor := s.cursor.skip }

/-- An anchor or alias. -/
def name (token : String → Token) (s : Scan) : Option Scan := do
  let s ← s.offerKey
  let (name, cursor) ← readName s.cursor.skip
  some { s.push (token name) with keyAllowed := false, cursor }

/-- A tag. -/
def tag (s : Scan) : Option Scan := do
  let s ← s.offerKey
  let (tag, cursor) ← readTag s.inFlow s.cursor
  some { s.push (.tag tag) with keyAllowed := false, cursor }

/-- A scalar between quotes. -/
def quotedScalar (quote : Char) (s : Scan) : Option Scan := do
  let s ← s.offerKey
  let (content, cursor) ← readQuoted quote s.cursor
  some { s.push (.scalar .quoted (String.ofList content)) with keyAllowed := false, cursor }

/-- A scalar without quotes. Where it has taken line ends with it, a key may start behind it. -/
def plainScalar (s : Scan) : Option Scan := do
  let s ← s.offerKey
  let least := s.blocks.head?.elim 0 (· + 1)
  let (content, broken, cursor) ← readPlain s.inFlow least s.cursor
  some { s.push (.scalar .plain (String.ofList content)) with keyAllowed := broken, cursor }

/-- A scalar in the lines below. -/
def blockScalar (folded : Bool) (s : Scan) : Option Scan := do
  let s ← s.dropCandidate
  let (content, cursor) ← readBlock folded s.blocks.head? s.cursor
  let style := if folded then .folded else .literal
  some { s.push (.scalar style (String.ofList content)) with keyAllowed := true, cursor }

/-- Characters that start no plain scalar. -/
def isIndicator (c : Char) : Bool :=
  "-?:,[]\x7b\x7d#&*!|>'\"%@\x60".toList.contains c

/-- Whether a plain scalar starts with this character before that one. -/
def startsPlain (inFlow : Bool) (first : Char) (second : Option Char) : Bool :=
  (!isIndicator first && !endsWord (some first)) ||
    (first = '-' && !second.any isSpace) ||
    (!inFlow && (first = '?' || first = ':') && !endsWord second)

/-- The next token, which starts at the cursor with the given character. -/
def token (first : Char) (s : Scan) : Option Scan :=
  let c := s.cursor
  let apart := endsWord (c.peek 1)
  if c.column = 0 ∧ first = '%' then s.directive
  else if c.column = 0 ∧ c.startsWithMark '-' then s.documentMark .documentStart
  else if c.column = 0 ∧ c.startsWithMark '.' then s.documentMark .documentEnd
  else if first = '[' then s.openFlow .flowSequence
  else if first = '\x7b' then s.openFlow .flowMapping
  else if first = ']' then s.closeFlow .flowSequenceEnd
  else if first = '\x7d' then s.closeFlow .flowMappingEnd
  else if first = ',' then s.flowEntry
  else if first = '-' ∧ apart then s.blockEntry
  else if first = '?' ∧ (s.inFlow ∨ apart) then s.explicitKey
  else if first = ':' ∧ (s.inFlow ∨ apart) then s.value
  else if first = '*' then s.name .alias
  else if first = '&' then s.name .anchor
  else if first = '!' then s.tag
  else if first = '|' ∧ !s.inFlow then s.blockScalar false
  else if first = '>' ∧ !s.inFlow then s.blockScalar true
  else if first = '\'' ∨ first = '"' then s.quotedScalar first
  else if startsPlain s.inFlow first (c.peek 1) then s.plainScalar
  else none

/-- The rest of the tokens. -/
def run : Nat → Scan → Option Scan
  | 0, _ => none
  | fuel + 1, s => do
    let s ← (s.skipBlanks (s.cursor.rest.length + 1)).dropStale
    match s.cursor.peek with
    | none => s.closeAll.dropCandidate
    | some first => do
      let s ← (s.closeBlocks s.cursor.column).token first
      run fuel s

end Scan

/-- The tokens of a text. -/
def Token.readAll? (text : String) : Option (List Token) := do
  let chars := match text.toList with
    | '\ufeff' :: rest => rest
    | chars => chars
  if !chars.all isAllowed then none
  else do
    let s ← Scan.run (chars.length + 1) ⟨⟨chars, 0, 0, 0⟩, #[], [], true, none, []⟩
    some s.tokens.toList

end ReleaseGate.Yaml
