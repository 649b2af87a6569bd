import ReleaseGate.Content
import ReleaseGate.Binary64.Shortest

/-!
# JSON text as a tree

A tree is what a JSON text says before it is known what it is about: numerals keep their spelling,
fields keep their order and their repetitions. Texts are written from trees and read into trees.

* `Tree.ofContent`: the tree of a content.
* `Tree.integer?`, `Tree.real?`: what a numeral denotes.
-/

namespace ReleaseGate.Json

/-- The content of a JSON text. -/
inductive Tree where
  | null
  | bool (value : Bool)
  /-- A numeral as it is spelled. -/
  | numeral (spelling : List Char)
  /-- A string; none if it escapes half of a surrogate pair, which no text holds. -/
  | string (content : Option String)
  | array (items : List Tree)
  | object (fields : List (Option String × Tree))

/-- How JSON spells numbers: a point or an exponent always, an exponent from `1e+16` up and below
`1e-5`. What is not finite has no numeral. -/
def realStyle : RealStyle where
  tie := .toEven
  positional e := -5 ≤ e && e < 16
  wholeMark := ".0".toList
  plusMark := ['+']
  infinity := "null".toList
  nan := "null".toList

namespace Tree

instance : Inhabited Tree := ⟨null⟩

/-- A text. -/
def text (content : String) : Tree := string (some content)

/-- A whole number. -/
def integer (value : Int) : Tree :=
  numeral ((if value < 0 then ['-'] else []) ++ decimalDigits value.natAbs)

/-- A binary64 number; what is not finite is null. -/
def real (x : Binary64) : Tree :=
  if x.isFinite then numeral (realStyle.write x) else null

mutual

/-- The tree of a content. -/
def ofContent : Content → Tree
  | .null => null
  | .flag b => bool b
  | .whole value => integer value
  | .real x => real x
  | .text s => text s
  | .list items => array (ofItems items)
  | .record fields => object (ofFields fields)

/-- The trees of contents. -/
def ofItems : List Content → List Tree
  | [] => []
  | item :: rest => ofContent item :: ofItems rest

/-- The fields of a record. -/
def ofFields : List (String × Content) → List (Option String × Tree)
  | [] => []
  | (key, value) :: rest => (some key, ofContent value) :: ofFields rest

end

/-- The number that a numeral denotes, unless it is too large. -/
def real? : Tree → Option Binary64
  | numeral spelling =>
    match Numeral.read? spelling with
    | some x => if x.toBinary64.isFinite then some x.toBinary64 else none
    | none => none
  | _ => none

/-- The whole number that a numeral without point and exponent denotes. Minus zero is not whole:
it is the binary64 zero with a minus sign. -/
def integer? : Tree → Option Int
  | numeral ('-' :: digits) =>
    if digits.all Char.isDigit && digitsValue digits ≠ 0 then some (-(digitsValue digits : Int))
    else none
  | numeral digits => if digits.all Char.isDigit then some (digitsValue digits : Int) else none
  | _ => none

/-- The number of a numeral with its kind: whole if it fits 64 bits, else binary64 if finite. -/
def number? (tree : Tree) : Option Number :=
  let whole := tree.integer?.bind fun i =>
    if h : -0x8000000000000000 ≤ i ∧ i < 0x10000000000000000 then some (Number.integer i h)
    else none
  match whole with
  | some n => some n
  | none => tree.real?.bind fun x => if h : x.isFinite = true then some (.real x h) else none

end Tree

end ReleaseGate.Json
