import ReleaseGate.Component
import ReleaseGate.Time.Reader

/-!
# Validations

A validation is one pass of a validator over the system, at a level from the team's own check to
the final sign-off.

* `Level.rank`: levels from least to most authoritative.
* `Validation.check`: the first fault of a validation.
* `Validation.content`, `Validation.read?`: a validation as a record.
-/

namespace ReleaseGate

/-- The tier of a validation. -/
inductive Level where
  /-- The owning team checked its own work. -/
  | selfAssessment
  /-- Another team reviewed it. -/
  | peer
  /-- An independent party reviewed it. -/
  | external
  /-- The final authority signed it off. -/
  | final
  deriving DecidableEq

namespace Level

/-- All levels, least authoritative first. -/
def all : List Level := [selfAssessment, peer, external, final]

/-- The tag of a level in configurations and reports. -/
def tag : Level → String
  | selfAssessment => "self"
  | peer => "peer"
  | external => "external"
  | final => "final"

/-- The level of a tag. -/
def ofTag? (tag : String) : Option Level := all.find? fun level => level.tag = tag

/-- The place of a level, least authoritative first. -/
def rank : Level → Nat
  | selfAssessment => 0
  | peer => 1
  | external => 2
  | final => 3

instance : Ord Level := ⟨fun a b => compare a.rank b.rank⟩

/-- The level that a node names. -/
def read? {ν : Type} [Document ν] (node : ν) : Option Level :=
  (Document.tag? node).bind ofTag?

end Level

/-- A moment in a document. -/
def Instant.readNode? {ν : Type} [Document ν] (node : ν) : Option Instant :=
  (Document.text? node).bind Instant.read?

/-- The outcome of one validation. -/
structure Validation where
  level : Level
  validatorId : String
  timestamp : Instant
  passed : Bool
  /-- The validator's own score. -/
  score : Binary64
  notes : String
  deriving DecidableEq

namespace Validation

/-- A validation needs a validator and a score in the unit interval. -/
def check (v : Validation) : Except Fault Unit :=
  if isBlankText v.validatorId then .error (.invalidInput .blankValidator)
  else if inUnitInterval v.score then .ok ()
  else .error (.invalidInput (.scoreOutOfRange v.validatorId v.score))

/-- The validation itself, once checked. -/
def checked (v : Validation) : Except Fault Validation := do
  v.check
  return v

/-- A validation as a record. -/
def content (v : Validation) : Content :=
  .record [("level", .text v.level.tag), ("validator_id", .text v.validatorId),
    ("timestamp", .text v.timestamp.text), ("passed", .flag v.passed),
    ("score", .real v.score), ("notes", .text v.notes)]

/-- The keys of a validation's record. -/
def keys : List String := ["level", "validator_id", "timestamp", "passed", "score", "notes"]

/-- The validation of a record; notes may be absent. -/
def read? {ν : Type} [Document ν] (node : ν) : Option Validation := do
  let fields ← Document.record? keys node
  let level ← fields.required "level" Level.read?
  let validatorId ← fields.required "validator_id" Document.text?
  let timestamp ← fields.required "timestamp" Instant.readNode?
  let passed ← fields.required "passed" Document.flag?
  let score ← fields.required "score" Document.real?
  let notes ← fields.optional "notes" "" Document.text?
  return { level, validatorId, timestamp, passed, score, notes }

end Validation

end ReleaseGate
