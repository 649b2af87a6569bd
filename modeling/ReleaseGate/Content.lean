import ReleaseGate.Json.Value

/-!
# What a record says

Content is what a format writes: fields in the order of their declaration, numbers and not their
spelling. JSON and YAML each spell the same content their own way.
-/

namespace ReleaseGate

/-- The content of a record before a format spells it. -/
inductive Content where
  | null
  | flag (value : Bool)
  | whole (value : Int)
  | real (value : Binary64)
  | text (value : String)
  | list (items : List Content)
  /-- Fields in the order in which they are written. -/
  | record (fields : List (String × Content))

namespace Content

instance : Inhabited Content := ⟨null⟩

mutual

/-- The content of a JSON value. -/
def ofValue : Json.Value → Content
  | .null => null
  | .bool b => flag b
  | .number (.integer value _) => whole value
  | .number (.real value _) => real value
  | .string s => text s
  | .array items => list (ofItems items)
  | .object fields => record (ofFields fields)

/-- The contents of values. -/
def ofItems : List Json.Value → List Content
  | [] => []
  | item :: rest => ofValue item :: ofItems rest

/-- The fields of an object. -/
def ofFields : List (String × Json.Value) → List (String × Content)
  | [] => []
  | (key, value) :: rest => (key, ofValue value) :: ofFields rest

end

end Content

end ReleaseGate
