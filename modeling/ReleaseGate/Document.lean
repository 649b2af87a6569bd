import ReleaseGate.Binary64.Basic

/-!
# Documents

What a reader of records asks of a document, whatever its format. Each format answers from its own
nodes: JSON, TOML and YAML differ in what they accept as a number, a text or a record, and not in
how the types of this library are read.

* `Document.record?`: the fields with known keys. Unknown keys are passed over and a known key
  must not be repeated.
* `Fields.required`, `Fields.optional`: reading one field.
-/

namespace ReleaseGate

/-- Fields of a record by key. -/
abbrev Fields (ν : Type) := List (String × ν)

/-- A format's nodes and the readings it allows of them. -/
class Document (ν : Type) where
  /-- A text. -/
  text? : ν → Option String
  /-- The tag of a choice without content. -/
  tag? : ν → Option String
  /-- A truth value. -/
  flag? : ν → Option Bool
  /-- A number. -/
  real? : ν → Option Binary64
  /-- A list. -/
  items? : ν → Option (List ν)
  /-- A map with keys of any kind, in the order of the text, repetitions included. -/
  entries? : ν → Option (List (String × ν))
  /-- A record: the fields whose keys are among those given. -/
  record? : List String → ν → Option (Fields ν)

namespace Fields

variable {ν α : Type}

/-- The fields with known keys, none of them repeated. -/
def known (keys : List String) (fields : List (String × ν)) : Option (Fields ν) :=
  let found := fields.filter fun field => keys.contains field.1
  if (found.map Prod.fst).Nodup then some found else none

/-- A field that must be present. -/
def required (fields : Fields ν) (key : String) (read : ν → Option α) : Option α :=
  (fields.lookup key).bind read

/-- A field that may be absent. -/
def optional (fields : Fields ν) (key : String) (default : α) (read : ν → Option α) : Option α :=
  match fields.lookup key with
  | none => some default
  | some node => read node

end Fields

namespace Document

variable {ν α : Type} [Document ν]

/-- A list, each item read the same way. -/
def list? (read : ν → Option α) (node : ν) : Option (List α) :=
  (items? node).bind fun items => items.mapM read

end Document

end ReleaseGate
