import ReleaseGate.Content
import ReleaseGate.Document
import ReleaseGate.Fault
import ReleaseGate.Text.Blank

/-!
# Components

A component is a monitored part of a system with five quality signals, each meant to lie in the
unit interval.

* `Component.check`: the first fault of a component, in the order name, then dimensions.
* `Component.content`, `Component.read?`: a component as a record.
-/

namespace ReleaseGate

/-- A finite number from zero to one. -/
def inUnitInterval (x : Binary64) : Bool := x.isFinite && Binary64.le 0 x && Binary64.le x 1

/-- A named part of a system and its quality signals. -/
structure Component where
  name : String
  /-- Internal consistency. -/
  coherence : Binary64
  /-- Alignment with governance. -/
  alignment : Binary64
  /-- Rate of progress. -/
  velocity : Binary64
  /-- Stability in operation. -/
  stability : Binary64
  /-- Completeness of documentation and evidence. -/
  evidenceScore : Binary64
  deriving DecidableEq

namespace Component

/-- The signals by name, in the order of their declaration. -/
def dimensions (c : Component) : List (String × Binary64) :=
  [("coherence", c.coherence), ("alignment", c.alignment), ("velocity", c.velocity),
    ("stability", c.stability), ("evidence_score", c.evidenceScore)]

/-- The first dimension outside the unit interval is a fault. -/
def checkDimensions (name : String) (dimensions : List (String × Binary64)) : Except Fault Unit :=
  match dimensions.find? fun d => !inUnitInterval d.2 with
  | some (dimension, value) =>
    .error (.invalidInput (.dimensionOutOfRange name dimension value))
  | none => .ok ()

/-- A component needs a name and signals in the unit interval. -/
def check (c : Component) : Except Fault Unit :=
  if isBlankText c.name then .error (.invalidInput .blankComponentName)
  else checkDimensions c.name c.dimensions

/-- The component itself, once checked. -/
def checked (c : Component) : Except Fault Component := do
  c.check
  return c

/-- A component with the same value for every signal. -/
def uniform (name : String) (value : Binary64) : Component :=
  ⟨name, value, value, value, value, value⟩

/-- A component as a record. -/
def content (c : Component) : Content :=
  .record (("name", .text c.name) :: c.dimensions.map fun (key, value) => (key, .real value))

/-- The keys of a component's record. -/
def keys : List String :=
  ["name", "coherence", "alignment", "velocity", "stability", "evidence_score"]

/-- The component of a record. -/
def read? {ν : Type} [Document ν] (node : ν) : Option Component := do
  let fields ← Document.record? keys node
  let name ← fields.required "name" Document.text?
  let coherence ← fields.required "coherence" Document.real?
  let alignment ← fields.required "alignment" Document.real?
  let velocity ← fields.required "velocity" Document.real?
  let stability ← fields.required "stability" Document.real?
  let evidenceScore ← fields.required "evidence_score" Document.real?
  return { name, coherence, alignment, velocity, stability, evidenceScore }

end Component

end ReleaseGate
