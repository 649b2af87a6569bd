import ReleaseGate.Json.Tree
import ReleaseGate.Text.Hexadecimal

/-!
# Writing JSON text

* `Tree.compact`: one line without blanks.
* `Tree.pretty`: one item or field a line, two blanks deeper per level.
* `escape`: the characters a string needs for one of its own.
-/

namespace ReleaseGate.Json

/-- What stands for a character inside quotes. -/
def escape (c : Char) : List Char :=
  match c with
  | '"' => ['\\', '"']
  | '\\' => ['\\', '\\']
  | '\x08' => ['\\', 'b']
  | '\x0c' => ['\\', 'f']
  | '\n' => ['\\', 'n']
  | '\r' => ['\\', 'r']
  | '\t' => ['\\', 't']
  | c =>
    if c.toNat < 0x20 then ['\\', 'u', '0', '0', hexDigit (c.toNat / 16), hexDigit c.toNat]
    else [c]

/-- A text between quotes. -/
def quote (content : String) : List Char :=
  '"' :: content.toList.flatMap escape ++ ['"']

namespace Tree

/-- A string. One that no text holds is written empty. -/
def writeString (content : Option String) : List Char := quote (content.getD "")

mutual

/-- One line without blanks. -/
def compact : Tree → List Char
  | null => "null".toList
  | bool true => "true".toList
  | bool false => "false".toList
  | numeral spelling => spelling
  | string content => writeString content
  | array items => '[' :: compactItems items
  | object fields => '\x7b' :: compactFields fields

/-- Items separated by commas, with the closing bracket. -/
def compactItems : List Tree → List Char
  | [] => [']']
  | [item] => compact item ++ [']']
  | item :: next :: rest => compact item ++ ',' :: compactItems (next :: rest)

/-- Fields separated by commas, with the closing brace. -/
def compactFields : List (Option String × Tree) → List Char
  | [] => ['\x7d']
  | [(key, value)] => writeString key ++ ':' :: compact value ++ ['\x7d']
  | (key, value) :: next :: rest =>
    writeString key ++ ':' :: compact value ++ ',' :: compactFields (next :: rest)

end

/-- A new line and the blanks of a level. -/
def newLine (level : Nat) : List Char := '\n' :: List.replicate (2 * level) ' '

mutual

/-- One item or field a line, each level two blanks deeper; what is empty stays on its line. -/
def prettyAt (level : Nat) : Tree → List Char
  | null => "null".toList
  | bool true => "true".toList
  | bool false => "false".toList
  | numeral spelling => spelling
  | string content => writeString content
  | array [] => ['[', ']']
  | array (item :: rest) =>
    '[' :: newLine (level + 1) ++ prettyAt (level + 1) item ++ prettyItems level rest
  | object [] => ['\x7b', '\x7d']
  | object ((key, value) :: rest) =>
    '\x7b' :: newLine (level + 1) ++ writeString key ++ ':' :: ' ' ::
      prettyAt (level + 1) value ++ prettyFields level rest

/-- The items after the first, each behind a comma, with the closing bracket. -/
def prettyItems (level : Nat) : List Tree → List Char
  | [] => newLine level ++ [']']
  | item :: rest =>
    ',' :: newLine (level + 1) ++ prettyAt (level + 1) item ++ prettyItems level rest

/-- The fields after the first, each behind a comma, with the closing brace. -/
def prettyFields (level : Nat) : List (Option String × Tree) → List Char
  | [] => newLine level ++ ['\x7d']
  | (key, value) :: rest =>
    ',' :: newLine (level + 1) ++ writeString key ++ ':' :: ' ' ::
      prettyAt (level + 1) value ++ prettyFields level rest

end

/-- The text of a tree, one item or field a line. -/
def pretty (tree : Tree) : List Char := prettyAt 0 tree

end Tree

/-- The compact text of a content. -/
def compactText (content : Content) : String := String.ofList (Tree.ofContent content).compact

/-- The text of a content with one item or field a line. -/
def prettyText (content : Content) : String := String.ofList (Tree.ofContent content).pretty

end ReleaseGate.Json
