import ReleaseGate.Binary64.Arithmetic
import ReleaseGate.KeyMap

/-!
# JSON values

Data of any shape: what metadata and evidence hold. A number keeps its kind: a whole number that
fits 64 bits, signed or unsigned, or a finite binary64 number.

* `Value.Ordered`: at every level the keys of objects ascend strictly, so each key occurs once and
  a value has one form.
* `Value.isTruthy`: the truth of a value as a flag.
-/

namespace ReleaseGate.Json

/-- A number and its kind: a whole number of 64 bits, with or without sign, or a finite binary64
number. -/
inductive Number where
  | integer (value : Int) (fits : -0x8000000000000000 ≤ value ∧ value < 0x10000000000000000)
  | real (value : Binary64) (finite : value.isFinite = true)
  deriving DecidableEq

/-- A JSON value. -/
inductive Value where
  | null
  | bool (value : Bool)
  | number (value : Number)
  | string (value : String)
  | array (items : List Value)
  | object (fields : List (String × Value))

namespace Value

instance : Inhabited Value := ⟨null⟩

/-- A binary64 number as a value; what is not finite has no numeral and becomes null. -/
def ofBinary64 (x : Binary64) : Value :=
  if h : x.isFinite = true then number (.real x h) else null

mutual

/-- Keys ascend strictly in the value and in all it holds. -/
def Ordered : Value → Prop
  | array items => ItemsOrdered items
  | object fields => KeysAscend fields ∧ FieldsOrdered fields
  | _ => True

/-- Keys ascend strictly in each item. -/
def ItemsOrdered : List Value → Prop
  | [] => True
  | item :: rest => Ordered item ∧ ItemsOrdered rest

/-- Keys ascend strictly in each field's value. -/
def FieldsOrdered : List (String × Value) → Prop
  | [] => True
  | (_, value) :: rest => Ordered value ∧ FieldsOrdered rest

end

theorem ordered_ofBinary64 (x : Binary64) : (ofBinary64 x).Ordered := by
  unfold ofBinary64
  split <;> simp [Ordered]

theorem fieldsOrdered_iff {fields : List (String × Value)} :
    FieldsOrdered fields ↔ ∀ e ∈ fields, e.2.Ordered := by
  induction fields with
  | nil => simp [FieldsOrdered]
  | cons field rest ih => simp [FieldsOrdered, ih]

/-- Null, false, zero and whatever is empty are false; all else is true. -/
def isTruthy : Value → Bool
  | null => false
  | bool b => b
  | number (.integer value _) => value != 0
  | number (.real value _) => !value.isZero
  | string s => !s.isEmpty
  | array items => !items.isEmpty
  | object fields => !fields.isEmpty

end Value

end ReleaseGate.Json
