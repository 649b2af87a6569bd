import ReleaseGate.Document
import ReleaseGate.Binary64.Numeral

/-!
# TOML values

* a record is a table, or an array of its fields in order, whatever follows them;
* a tag is a string, or a table with the tag as its only key and something empty as its value;
* a number is whole or binary64; dates and times are read and are neither texts nor numbers.
-/

namespace ReleaseGate.Toml

/-- A TOML value. -/
inductive Value where
  | string (value : String)
  | integer (value : Int)
  | real (value : Binary64)
  | bool (value : Bool)
  | dateTime
  | array (items : List Value)
  | table (fields : List (String × Value))

namespace Value

/-- Nothing inside. -/
def isEmpty : Value → Bool
  | array items => items.isEmpty
  | table fields => fields.isEmpty
  | _ => false

/-- The binary64 number of a whole number. -/
def realOfInt (i : Int) : Binary64 := Numeral.toBinary64 ⟨i < 0, i.natAbs, 0⟩

/-- The fields of a table with known keys, or those of an array by place. -/
def record? (keys : List String) : Value → Option (Fields Value)
  | array items => some (keys.zip items)
  | table fields => Fields.known keys fields
  | _ => none

instance : Document Value where
  text?
    | string s => some s
    | _ => none
  tag?
    | string s => some s
    | table [(tag, content)] => if content.isEmpty then some tag else none
    | _ => none
  flag?
    | bool b => some b
    | _ => none
  real?
    | integer i => some (realOfInt i)
    | real x => some x
    | _ => none
  items?
    | array items => some items
    | _ => none
  entries?
    | table fields => some fields
    | _ => none
  record? := record?

end Value

end ReleaseGate.Toml
