import ReleaseGate.Scoring.Thresholds
import ReleaseGate.KeyMap

/-!
# Scoring configurations

* `ScoringConfig.standard`: the configuration used unless another one is given.
* `ScoringConfig.check`: the first fault of a configuration.
* `ScoringConfig.content`, `ScoringConfig.read?`: a configuration as a record. Every field may be
  absent and is then the standard one.
-/

namespace ReleaseGate

/-- How scores are banded and when a release is ready. -/
structure ScoringConfig where
  /-- A tag copied into every report. -/
  version : String
  thresholds : Thresholds
  /-- The least final score of a release that is ready. -/
  readinessThreshold : Binary64
  /-- The least pass rate of a release that is ready. -/
  minPassRate : Binary64
  /-- Weights of sources, kept for the record. -/
  weights : KeyMap Binary64
  /-- The levels that a release is expected to pass. -/
  requiredValidations : List Level
  deriving DecidableEq

namespace ScoringConfig

/-- The configuration used unless another one is given. -/
def standard : ScoringConfig where
  version := "1.0.0"
  thresholds := .standard
  readinessThreshold := 0.7
  minPassRate := 0.8
  weights := .ofList
    [("governance", 0.30), ("architecture", 0.25), ("implementation", 0.25), ("validation", 0.20)]
  requiredValidations := [.selfAssessment, .peer, .external]

instance : Inhabited ScoringConfig := ⟨standard⟩

/-- A setting lies in the unit interval. -/
def checkSetting (name : String) (value : Binary64) : Except Fault Unit :=
  if inUnitInterval value then .ok () else .error (.configuration (.settingOutOfRange name value))

/-- Thresholds first, then the two gates. -/
def check (config : ScoringConfig) : Except Fault Unit := do
  config.thresholds.check
  checkSetting "readiness_threshold" config.readinessThreshold
  checkSetting "min_pass_rate" config.minPassRate

/-- The configuration itself, once checked. -/
def checked (config : ScoringConfig) : Except Fault ScoringConfig := do
  config.check
  return config

/-- A configuration as a record. -/
def content (config : ScoringConfig) : Content :=
  .record [("version", .text config.version), ("thresholds", config.thresholds.content),
    ("readiness_threshold", .real config.readinessThreshold),
    ("min_pass_rate", .real config.minPassRate),
    ("weights", .record (config.weights.entries.map fun (key, value) => (key, .real value))),
    ("required_validations",
      .list (config.requiredValidations.map fun level => .text level.tag))]

/-- The keys of a configuration's record. -/
def keys : List String :=
  ["version", "thresholds", "readiness_threshold", "min_pass_rate", "weights",
    "required_validations"]

/-- A map of weights; the last of a repeated key wins. -/
def readWeights? {ν : Type} [Document ν] (node : ν) : Option (KeyMap Binary64) := do
  let entries ← Document.entries? node
  let weights ← entries.mapM fun (key, node) => (Document.real? node).map (key, ·)
  return .ofList weights

/-- The configuration of a record, laid over the standard one. -/
def read? {ν : Type} [Document ν] (node : ν) : Option ScoringConfig := do
  let fields ← Document.record? keys node
  let version ← fields.optional "version" standard.version Document.text?
  let thresholds ← fields.optional "thresholds" standard.thresholds Thresholds.read?
  let readinessThreshold ←
    fields.optional "readiness_threshold" standard.readinessThreshold Document.real?
  let minPassRate ← fields.optional "min_pass_rate" standard.minPassRate Document.real?
  let weights ← fields.optional "weights" standard.weights readWeights?
  let requiredValidations ←
    fields.optional "required_validations" standard.requiredValidations
      (Document.list? Level.read?)
  return { version, thresholds, readinessThreshold, minPassRate, weights, requiredValidations }

end ScoringConfig

end ReleaseGate
