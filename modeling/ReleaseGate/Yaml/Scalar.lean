import ReleaseGate.Yaml.Cursor
import ReleaseGate.Text.Hexadecimal

/-!
# Reading YAML scalars

* `readQuoted`: between single or double quotes.
* `readPlain`: without quotes; it ends before a colon and blank, a comment, or a lesser indentation.
* `readBlock`: the lines below `|` or `>`.

Line ends inside quoted and plain scalars are folded: one becomes a blank, and of several all but
the first stay.
-/

namespace ReleaseGate.Yaml

/-! ## Folding -/

/-- A run of blanks and line ends inside a scalar. -/
structure Fold where
  /-- A line has ended in the run. -/
  broken : Bool := false
  /-- Blanks before the first line end. -/
  blanks : List Char := []
  /-- The first line end. -/
  first : List Char := []
  /-- The other line ends. -/
  others : List Char := []

/-- What a run contributes to the scalar. -/
def Fold.content (fold : Fold) : List Char :=
  if fold.broken then
    if fold.first = ['\n'] then if fold.others.isEmpty then [' '] else fold.others
    else fold.first ++ fold.others
  else fold.blanks

/-- The run of blanks and line ends at the front. In a line after the first, a tab before the
column `least` is refused. -/
def readFold (least : Nat) : Nat → Fold → Cursor → Option (Fold × Cursor)
  | 0, _, _ => none
  | fuel + 1, fold, c =>
    match c.peek with
    | none => some (fold, c)
    | some ch =>
      if isSpace ch then
        if fold.broken then
          if ch = '\t' ∧ c.column < least then none else readFold least fuel fold c.skip
        else readFold least fuel { fold with blanks := fold.blanks ++ [ch] } c.skip
      else if isBreak ch then
        let fold :=
          if fold.broken then { fold with others := fold.others ++ c.lineBreak }
          else { fold with broken := true, first := c.lineBreak }
        readFold least fuel fold c.skipLine
      else some (fold, c)

/-! ## Quoted scalars -/

/-- The character of an escape of one letter. -/
def simpleEscape? : Char → Option Char
  | '0' => some '\x00'
  | 'a' => some '\x07'
  | 'b' => some '\x08'
  | 't' => some '\t'
  | '\t' => some '\t'
  | 'n' => some '\n'
  | 'v' => some '\x0b'
  | 'f' => some '\x0c'
  | 'r' => some '\r'
  | 'e' => some '\x1b'
  | ' ' => some ' '
  | '"' => some '"'
  | '/' => some '/'
  | '\\' => some '\\'
  | 'N' => some '\u0085'
  | '_' => some '\u00a0'
  | 'L' => some '\u2028'
  | 'P' => some '\u2029'
  | _ => none

/-- How many hexadecimal digits follow a letter. -/
def hexLength? : Char → Option Nat
  | 'x' => some 2
  | 'u' => some 4
  | 'U' => some 8
  | _ => none

/-- The character of an escape, behind its backslash. -/
def readEscape (c : Cursor) : Option (Char × Cursor) := do
  let letter ← c.peek
  match hexLength? letter with
  | none => do
    let char ← simpleEscape? letter
    some (char, c.skip)
  | some width =>
    let digits := (c.rest.drop 1).take width
    if digits.length = width then do
      let n ← hexNumber? digits
      if n.isValidChar then some (Char.ofNat n, c.skipMany (1 + width)) else none
    else none

/-- The characters of a quoted scalar up to a blank, a line end or the closing quote; and whether a
backslash before a line end was met. The characters found so far are held last first. -/
def readQuotedWord (quote : Char) : Nat → (found : List Char) → Cursor →
    Option (List Char × Bool × Cursor)
  | 0, _, _ => none
  | fuel + 1, found, c =>
    match c.peek with
    | none => some (found.reverse, false, c)
    | some ch =>
      if endsWord (some ch) then some (found.reverse, false, c)
      else if ch = quote then
        if quote = '\'' ∧ c.peek 1 = some '\'' then
          readQuotedWord quote fuel ('\'' :: found) (c.skipMany 2)
        else some (found.reverse, false, c)
      else if quote = '"' ∧ ch = '\\' then
        if (c.peek 1).any isBreak then some (found.reverse, true, c.skip.skipLine)
        else do
          let (char, c) ← readEscape c.skip
          readQuotedWord quote fuel (char :: found) c
      else readQuotedWord quote fuel (ch :: found) c.skip

/-- The rest of a quoted scalar, behind the opening quote. -/
def readQuotedRest (quote : Char) : Nat → List Char → Cursor → Option (List Char × Cursor)
  | 0, _, _ => none
  | fuel + 1, found, c =>
    if c.atDocumentMark || c.rest.isEmpty then none
    else do
      let (word, escapedBreak, c) ← readQuotedWord quote (c.rest.length + 1) [] c
      if c.peek = some quote then some (found ++ word, c.skip)
      else do
        let (fold, c) ← readFold 0 (c.rest.length + 1) { broken := escapedBreak } c
        readQuotedRest quote fuel (found ++ word ++ fold.content) c

/-- A quoted scalar. -/
def readQuoted (quote : Char) (c : Cursor) : Option (List Char × Cursor) :=
  readQuotedRest quote (c.rest.length + 1) [] c.skip

/-! ## Plain scalars -/

/-- An indicator inside brackets and braces. -/
def isFlowIndicator (c : Char) : Bool :=
  c = ',' || c = '[' || c = ']' || c = '\x7b' || c = '\x7d'

/-- The characters of a plain scalar up to a blank, a line end or an indicator. Those found so far
are held last first. -/
def readPlainWord (inFlow : Bool) : Nat → (found : List Char) → Cursor →
    Option (List Char × Cursor)
  | 0, _, _ => none
  | fuel + 1, found, c =>
    match c.peek with
    | none => some (found.reverse, c)
    | some ch =>
      if endsWord (some ch) then some (found.reverse, c)
      else if ch = ':' ∧ endsWord (c.peek 1) then some (found.reverse, c)
      else if inFlow ∧ ch = ':' ∧ (c.peek 1).any (fun d => isFlowIndicator d || d = '?') then none
      else if inFlow ∧ isFlowIndicator ch then some (found.reverse, c)
      else readPlainWord inFlow fuel (ch :: found) c.skip

/-- The rest of a plain scalar, given the blanks before it; and whether a line has ended behind
it. -/
def readPlainRest (inFlow : Bool) (least : Nat) : Nat → List Char → Fold → Cursor →
    Option (List Char × Bool × Cursor)
  | 0, _, _, _ => none
  | fuel + 1, found, fold, c =>
    if c.atDocumentMark || c.peek = some '#' then some (found, fold.broken, c)
    else do
      let (word, c) ← readPlainWord inFlow (c.rest.length + 1) [] c
      let (found, fold) := if word.isEmpty then (found, fold) else (found ++ fold.content ++ word, {})
      if (c.peek).any fun ch => isSpace ch || isBreak ch then do
        let (fold, c) ← readFold least (c.rest.length + 1) fold c
        if !inFlow && c.column < least then some (found, fold.broken, c)
        else readPlainRest inFlow least fuel found fold c
      else some (found, fold.broken, c)

/-- A plain scalar inside a block of the given indentation. -/
def readPlain (inFlow : Bool) (least : Nat) (c : Cursor) : Option (List Char × Bool × Cursor) :=
  readPlainRest inFlow least (c.rest.length + 1) [] {} c

/-! ## Block scalars -/

/-- What happens to the line ends behind a block scalar. -/
inductive Chomping where
  /-- All go. -/
  | strip
  /-- The first stays. -/
  | clip
  /-- All stay. -/
  | keep
  deriving DecidableEq

/-- The chomping of an indicator. -/
def Chomping.ofChar? : Char → Option Chomping
  | '+' => some .keep
  | '-' => some .strip
  | _ => none

/-- An indentation from one to nine. -/
def indentOfChar? (c : Char) : Option Nat :=
  if '1' ≤ c ∧ c ≤ '9' then some (c.toNat - '0'.toNat) else none

/-- A zero where an indentation may stand. -/
def isZero (c : Option Char) : Bool := c == some '0'

/-- The header of a block scalar: chomping and indentation in either order. -/
def readBlockHeader (c : Cursor) : Option (Chomping × Option Nat × Cursor) :=
  match c.peek.bind Chomping.ofChar? with
  | some chomping =>
    if isZero (c.peek 1) then none
    else match (c.peek 1).bind indentOfChar? with
      | some indent => some (chomping, some indent, c.skipMany 2)
      | none => some (chomping, none, c.skip)
  | none =>
    if isZero c.peek then none
    else match c.peek.bind indentOfChar? with
      | some indent =>
        match (c.peek 1).bind Chomping.ofChar? with
        | some chomping => some (chomping, some indent, c.skipMany 2)
        | none => some (.clip, some indent, c.skip)
      | none => some (.clip, none, c)

/-- The empty lines before the next line of a block scalar: their line ends, and the greatest
column reached. With an indentation, blanks beyond it belong to the line. -/
def readBlockBreaks (indent : Option Nat) : Nat → (breaks : List Char) → (widest : Nat) → Cursor →
    Option (List Char × Nat × Cursor)
  | 0, _, _, _ => none
  | fuel + 1, breaks, widest, c =>
    let within (column : Nat) : Bool := indent.all (column < ·)
    let blanks := (c.rest.takeWhile (· = ' ')).length
    let c := match indent with
      | none => c.skipMany blanks
      | some indent => c.skipMany (min blanks (indent - c.column))
    let widest := max widest c.column
    match c.peek with
    | none => some (breaks, widest, c)
    | some ch =>
      if ch = '\t' ∧ within c.column then none
      else if isBreak ch then readBlockBreaks indent fuel (breaks ++ c.lineBreak) widest c.skipLine
      else some (breaks, widest, c)

/-- What is known between two lines of a block scalar. -/
structure BlockState where
  found : List Char := []
  /-- The end of the last line. -/
  lineEnd : List Char := []
  /-- Empty lines behind it. -/
  breaks : List Char := []
  /-- The last line starts with a blank. -/
  indented : Bool := false

/-- The lines of a block scalar, all of the same indentation. -/
def readBlockLines (folded : Bool) (indent : Nat) : Nat → BlockState → Cursor →
    Option (BlockState × Cursor)
  | 0, _, _ => none
  | fuel + 1, state, c =>
    if c.column ≠ indent || c.rest.isEmpty then some (state, c)
    else do
      let indented := c.peek.any isSpace
      let joint :=
        if folded ∧ state.lineEnd = ['\n'] ∧ !state.indented ∧ !indented then
          if state.breaks.isEmpty then [' '] else []
        else state.lineEnd
      let line := c.rest.takeWhile (!isBreak ·)
      let c := c.skipMany line.length
      let lineEnd := c.lineBreak
      let (breaks, _, c) ← readBlockBreaks (some indent) (c.rest.length + 1) [] 0 c.skipLine
      readBlockLines folded indent fuel
        ⟨state.found ++ joint ++ state.breaks ++ line, lineEnd, breaks, indented⟩ c

/-- A block scalar inside a block of the given indentation (none outside any block). -/
def readBlock (folded : Bool) (outer : Option Nat) (c : Cursor) : Option (List Char × Cursor) := do
  let (chomping, indent, c) ← readBlockHeader c.skip
  let c := c.skipWhile isSpace
  let c := if c.peek = some '#' then c.skipWhile (!isBreak ·) else c
  if !endsLine c.peek then none
  else do
    let c := c.skipLine
    let fixed := indent.map fun n => (outer.getD 0) + n
    let (breaks, widest, c) ← readBlockBreaks fixed (c.rest.length + 1) [] 0 c
    let indent := fixed.getD (max widest (max 1 (outer.elim 0 (· + 1))))
    let (state, c) ← readBlockLines folded indent (c.rest.length + 1) { breaks } c
    let tail := match chomping with
      | .strip => []
      | .clip => state.lineEnd
      | .keep => state.lineEnd ++ state.breaks
    some (state.found ++ tail, c)

end ReleaseGate.Yaml
