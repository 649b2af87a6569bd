import ReleaseGate.Toml.Scalar

/-!
# Reading TOML documents

A document is a list of lines: comments, headers and key-value pairs. Keys may be dotted and then
stand for tables inside tables. A table is defined in one place: by its header, by dotted keys
under one header, or inline.

* `Section`: what is known of a document while it is read.
* `readValue`: a value of any kind.
* `Value.read?`: the table of a document.
-/

namespace ReleaseGate.Toml

/-! ## Tables that grow -/

/-- How a table came to be. -/
inductive Origin where
  /-- By its own header. -/
  | header
  /-- As a table around one with a header. -/
  | implied
  /-- By a dotted key. -/
  | dotted
  deriving DecidableEq

/-- What a key stands for while a document is read. -/
inductive Section where
  | value (value : Value)
  | table (origin : Origin) (fields : List (String × Section))
  /-- Tables with the same header, each with its fields. -/
  | tables (items : List (List (String × Section)))

mutual

/-- The value of a section. -/
def Section.toValue : Section → Value
  | .value v => v
  | .table _ fields => .table (sectionFields fields)
  | .tables items => .array (sectionTables items)

/-- The values of fields. -/
def sectionFields : List (String × Section) → List (String × Value)
  | [] => []
  | (key, s) :: rest => (key, s.toValue) :: sectionFields rest

/-- The tables of an array of tables. -/
def sectionTables : List (List (String × Section)) → List Value
  | [] => []
  | fields :: rest => .table (sectionFields fields) :: sectionTables rest

end

/-- Replace the section of a key. -/
def replaceSection (key : String) (s : Section) (fields : List (String × Section)) :
    List (String × Section) :=
  fields.map fun field => if field.1 = key then (key, s) else field

/-- Change the table at a path. Tables that are missing on the way are made with the origin given;
of several tables with one header the last is meant; values cannot be entered, and a dotted key
cannot enter a table that has a header. -/
def updateAt (made : Origin) (change : Origin → List (String × Section) →
    Option (List (String × Section))) :
    List String → Origin → List (String × Section) → Option (List (String × Section))
  | [], origin, fields => change origin fields
  | key :: path, _, fields =>
    match fields.lookup key with
    | none => do
      let inner ← updateAt made change path made []
      some (fields ++ [(key, .table made inner)])
    | some (.value _) => none
    | some (.table origin inner) =>
      if made = .dotted ∧ origin = .header then none
      else do
        let inner ← updateAt made change path origin inner
        some (replaceSection key (.table origin inner) fields)
    | some (.tables items) => do
      let last ← items.getLast?
      let inner ← updateAt made change path .header last
      some (replaceSection key (.tables (items.dropLast ++ [inner])) fields)

/-- Add a pair to a table. The table of a dotted key must have come from dotted keys. -/
def addPair (path : List String) (key : String) (value : Section)
    (fields : List (String × Section)) : Option (List (String × Section)) :=
  updateAt .dotted (fun origin fields =>
    if (decide (origin = .dotted) == path.isEmpty) || (fields.lookup key).isSome then none
    else some (fields ++ [(key, value)])) path .header fields

/-- Open a table by its header, which it must not have had before. -/
def openTable (path : List String) (key : String) (fields : List (String × Section)) :
    Option (List (String × Section)) :=
  updateAt .implied (fun _ fields =>
    match fields.lookup key with
    | none => some (fields ++ [(key, .table .header [])])
    | some (.table .implied inner) => some (replaceSection key (.table .header inner) fields)
    | some _ => none) path .header fields

/-- Open one more table of an array of tables. -/
def openItem (path : List String) (key : String) (fields : List (String × Section)) :
    Option (List (String × Section)) :=
  updateAt .implied (fun _ fields =>
    match fields.lookup key with
    | none => some (fields ++ [(key, .tables [[]])])
    | some (.tables items) => some (replaceSection key (.tables (items ++ [[]])) fields)
    | some _ => none) path .header fields

/-- Add a pair to the table of the last header. -/
def addUnder (current : List String) (path : List String) (key : String) (value : Section)
    (fields : List (String × Section)) : Option (List (String × Section)) :=
  updateAt .implied (fun _ fields => addPair path key value fields) current .header fields

/-! ## Blanks between tokens -/

/-- A comment, or nothing, up to the end of the line. -/
def skipComment : List Char → Option (List Char)
  | '#' :: rest =>
    let rest := rest.dropWhile isPrintable
    match rest with
    | [] => some []
    | '\n' :: _ => some rest
    | '\r' :: '\n' :: _ => some rest
    | _ => none
  | rest => some rest

/-- A line end. -/
def readLineEnd : List Char → Option (List Char)
  | '\n' :: rest => some rest
  | '\r' :: '\n' :: rest => some rest
  | _ => none

/-- Blanks, comments and line ends; the first argument bounds the count of lines. -/
def skipLines : Nat → List Char → Option (List Char)
  | 0, _ => none
  | fuel + 1, text => do
    let rest ← skipComment (skipSpaces text)
    match readLineEnd rest with
    | some rest => skipLines fuel rest
    | none => some rest

/-- Blanks, comments and line ends. -/
def skipAll (text : List Char) : Option (List Char) := skipLines (text.length + 1) text

/-! ## Keys and values -/

/-- A character of a key without quotes. -/
def isKeyChar (c : Char) : Bool := c.isAlphanum || c = '_' || c = '-'

/-- One part of a key. -/
def readSimpleKey (text : List Char) : Option (String × List Char) :=
  match text with
  | c :: _ =>
    if c = '"' ∨ c = '\'' then
      (readLineString text).map fun (content, rest) => (String.ofList content, rest)
    else
      let name := text.takeWhile isKeyChar
      if name.isEmpty then none else some (String.ofList name, text.dropWhile isKeyChar)
  | [] => none

/-- How deep keys and values may nest. -/
def deepest : Nat := 79

/-- A dotted key: the tables it goes through, and its last part. -/
def readKey : Nat → List Char → Option ((List String × String) × List Char)
  | 0, _ => none
  | fuel + 1, text => do
    let (part, rest) ← readSimpleKey (skipSpaces text)
    match skipSpaces rest with
    | '.' :: rest => do
      let ((path, last), rest) ← readKey fuel rest
      some ((part :: path, last), rest)
    | rest => some (([], part), rest)

mutual

/-- A value of any kind, of at most `room` levels. -/
def readValue : (fuel room : Nat) → List Char → Option (Value × List Char)
  | 0, _, _ => none
  | fuel + 1, room, text =>
    match text with
    | '"' :: _ => (readQuoted text).map fun (s, rest) => (.string (String.ofList s), rest)
    | '\'' :: _ => (readQuoted text).map fun (s, rest) => (.string (String.ofList s), rest)
    | '[' :: rest =>
      match room with
      | 0 => none
      | room + 1 => (readItems fuel room rest).map fun (items, rest) => (.array items, rest)
    | '\x7b' :: rest =>
      match room with
      | 0 => none
      | room + 1 =>
        match skipSpaces rest with
        | '\x7d' :: rest => some (.table [], rest)
        | rest =>
          (readPairs fuel room [] rest).map fun (fields, rest) =>
            (.table (sectionFields fields), rest)
    | 't' :: 'r' :: 'u' :: 'e' :: rest => some (.bool true, rest)
    | 'f' :: 'a' :: 'l' :: 's' :: 'e' :: rest => some (.bool false, rest)
    | 'i' :: _ => (readReal text).map fun (x, rest) => (.real x, rest)
    | 'n' :: _ => (readReal text).map fun (x, rest) => (.real x, rest)
    | text => readNumber text

/-- Items up to the closing bracket, with an optional comma behind the last. -/
def readItems : (fuel room : Nat) → List Char → Option (List Value × List Char)
  | 0, _, _ => none
  | fuel + 1, room, text => do
    let rest ← skipAll text
    match rest with
    | ']' :: rest => some ([], rest)
    | rest => do
      let (item, rest) ← readValue fuel room rest
      match ← skipAll rest with
      | ',' :: rest => do
        let (items, rest) ← readItems fuel room rest
        some (item :: items, rest)
      | ']' :: rest => some ([item], rest)
      | _ => none

/-- Pairs of an inline table up to the closing brace, all on one line. -/
def readPairs : (fuel room : Nat) → List (String × Section) → List Char →
    Option (List (String × Section) × List Char)
  | 0, _, _, _ => none
  | fuel + 1, room, fields, text => do
    let ((path, key), rest) ← readKey deepest text
    let rest ← readChar '=' rest
    let (value, rest) ← readValue fuel room (skipSpaces rest)
    let fields ← addPair path key (.value value) fields
    match skipSpaces rest with
    | ',' :: rest => readPairs fuel room fields rest
    | '\x7d' :: rest => some (fields, rest)
    | _ => none

end

/-! ## Documents -/

/-- The rest of a line: blanks, a comment, and its end or that of the text. -/
def finishLine (text : List Char) : Option (List Char) := do
  let rest ← skipComment (skipSpaces text)
  match rest with
  | [] => some []
  | rest => readLineEnd rest

/-- Lines up to the end of the text, the pairs going under the header `current`. The first argument
bounds the count of lines. -/
def readLines : Nat → (current : List String) → List (String × Section) → List Char →
    Option (List (String × Section))
  | 0, _, _, _ => none
  | fuel + 1, current, root, text => do
    let rest ← skipAll text
    match rest with
    | [] => some root
    | '[' :: '[' :: rest => do
      let ((path, key), rest) ← readKey deepest rest
      let rest ← readChar ']' rest
      let rest ← readChar ']' rest
      readLines fuel (path ++ [key]) (← openItem path key root) (← finishLine rest)
    | '[' :: rest => do
      let ((path, key), rest) ← readKey deepest rest
      let rest ← readChar ']' rest
      readLines fuel (path ++ [key]) (← openTable path key root) (← finishLine rest)
    | rest => do
      let ((path, key), rest) ← readKey deepest rest
      let rest ← readChar '=' rest
      let (value, rest) ← readValue (2 * rest.length + 1) deepest (skipSpaces rest)
      readLines fuel current (← addUnder current path key (.value value) root) (← finishLine rest)

/-- Drop a byte order mark. -/
def dropMark : List Char → List Char
  | '\ufeff' :: rest => rest
  | text => text

/-- The table of a document. -/
def Value.read? (text : String) : Option Value := do
  let chars := dropMark text.toList
  let root ← readLines (chars.length + 1) [] [] chars
  some (.table (sectionFields root))

end ReleaseGate.Toml
