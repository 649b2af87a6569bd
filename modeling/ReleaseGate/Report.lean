import ReleaseGate.Validation

/-!
# Frequency reports

A report is the result of one aggregation: a score, the band it falls into, and the figures behind
it.

* `Band`: the five bands, lowest first, each with its recommendation.
* `Report.content`, `Report.read?`: a report as a record. Missing levels are left out if there are
  none.
-/

namespace ReleaseGate

/-- The operational band of a score. -/
inductive Band where
  /-- Unstable. -/
  | critical
  /-- In need of attention. -/
  | low
  /-- In normal operation. -/
  | nominal
  /-- Performing well. -/
  | optimal
  /-- At the greatest coherence. -/
  | peak
  deriving DecidableEq

namespace Band

/-- All bands, lowest first. -/
def all : List Band := [critical, low, nominal, optimal, peak]

/-- The tag of a band in reports. -/
def tag : Band → String
  | critical => "critical"
  | low => "low"
  | nominal => "nominal"
  | optimal => "optimal"
  | peak => "peak"

/-- The band of a tag. -/
def ofTag? (tag : String) : Option Band := all.find? fun band => band.tag = tag

/-- The place of a band, lowest first. -/
def rank : Band → Nat
  | critical => 0
  | low => 1
  | nominal => 2
  | optimal => 3
  | peak => 4

instance : Ord Band := ⟨fun a b => compare a.rank b.rank⟩

/-- The tag in capitals, for headlines. -/
def headline (band : Band) : String := String.ofList (band.tag.toList.map Char.toUpper)

/-- What operators are told. -/
def recommendation : Band → String
  | critical => "HALT: System requires immediate attention. Do not proceed with release."
  | low => "CAUTION: Address deficiencies before peer validation."
  | nominal => "PROCEED: System stable. Continue with validation pipeline."
  | optimal => "ADVANCE: Ready for final authority review."
  | peak => "EXECUTE: Maximum coherence achieved. Full speed ahead."

/-- The band that a node names. -/
def read? {ν : Type} [Document ν] (node : ν) : Option Band :=
  (Document.tag? node).bind ofTag?

end Band

/-- A component's line in a report. -/
structure ComponentScore where
  name : String
  /-- The weighted frequency to four places. -/
  frequency : Binary64
  metrics : Component
  deriving DecidableEq

namespace ComponentScore

/-- A line as a record. -/
def content (s : ComponentScore) : Content :=
  .record [("name", .text s.name), ("frequency", .real s.frequency),
    ("metrics", s.metrics.content)]

/-- The line of a record. -/
def read? {ν : Type} [Document ν] (node : ν) : Option ComponentScore := do
  let fields ← Document.record? ["name", "frequency", "metrics"] node
  let name ← fields.required "name" Document.text?
  let frequency ← fields.required "frequency" Document.real?
  let metrics ← fields.required "metrics" Component.read?
  return { name, frequency, metrics }

end ComponentScore

/-- The result of one aggregation. -/
structure Report where
  timestamp : Instant
  /-- The version tag of the configuration in effect. -/
  version : String
  /-- The final score to four places. -/
  totalScore : Binary64
  /-- The band of the score before rounding. -/
  band : Band
  components : List ComponentScore
  validations : List Validation
  passRate : Binary64
  multiplier : Binary64
  readyForFinalReview : Bool
  recommendation : String
  /-- Required levels without a passing validation. -/
  missing : List Level
  deriving DecidableEq

namespace Report

/-- How many validations passed. -/
def passedValidations (r : Report) : Nat := r.validations.countP (·.passed)

/-- The fields of a report after its timestamp. -/
def figures (r : Report) : List (String × Content) :=
  [("version", .text r.version), ("total_score", .real r.totalScore), ("band", .text r.band.tag),
    ("components", .list (r.components.map ComponentScore.content)),
    ("validations", .list (r.validations.map Validation.content)),
    ("pass_rate", .real r.passRate), ("validation_multiplier", .real r.multiplier),
    ("ready_for_final_review", .flag r.readyForFinalReview),
    ("recommendation", .text r.recommendation)] ++
  if r.missing.isEmpty then []
  else [("missing_validations", .list (r.missing.map fun level => .text level.tag))]

/-- A report as a record. -/
def content (r : Report) : Content :=
  .record (("timestamp", .text r.timestamp.text) :: r.figures)

/-- The keys of a report's record. -/
def keys : List String :=
  ["timestamp", "version", "total_score", "band", "components", "validations", "pass_rate",
    "validation_multiplier", "ready_for_final_review", "recommendation", "missing_validations"]

/-- The report of a record. -/
def read? {ν : Type} [Document ν] (node : ν) : Option Report := do
  let fields ← Document.record? keys node
  let timestamp ← fields.required "timestamp" Instant.readNode?
  let version ← fields.required "version" Document.text?
  let totalScore ← fields.required "total_score" Document.real?
  let band ← fields.required "band" Band.read?
  let components ← fields.required "components" (Document.list? ComponentScore.read?)
  let validations ← fields.required "validations" (Document.list? Validation.read?)
  let passRate ← fields.required "pass_rate" Document.real?
  let multiplier ← fields.required "validation_multiplier" Document.real?
  let readyForFinalReview ← fields.required "ready_for_final_review" Document.flag?
  let recommendation ← fields.required "recommendation" Document.text?
  let missing ← fields.optional "missing_validations" [] (Document.list? Level.read?)
  return { timestamp, version, totalScore, band, components, validations, passRate, multiplier,
           readyForFinalReview, recommendation, missing }

end Report

end ReleaseGate
