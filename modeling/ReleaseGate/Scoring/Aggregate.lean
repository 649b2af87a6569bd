import ReleaseGate.Scoring.Figures

/-!
# Aggregation

Components and validations are checked, reduced to one score, and reported.

* `checkInputs`: the first fault of components and validations, in order.
* `report`: the report of inputs that need no more checks.
* `aggregate`: both, after the configuration.
* `Aggregator`: a checked configuration and the inputs gathered so far.
-/

namespace ReleaseGate

/-- Check components in order; a name must not have occurred before. -/
def checkComponents (seen : List String) : List Component → Except Fault Unit
  | [] => .ok ()
  | c :: rest => do
    c.check
    if seen.contains c.name then .error (.invalidInput (.repeatedComponent c.name))
    else checkComponents (c.name :: seen) rest

/-- Check validations in order. -/
def checkValidations : List Validation → Except Fault Unit
  | [] => .ok ()
  | v :: rest => do
    v.check
    checkValidations rest

/-- Check components, then validations. -/
def checkInputs (components : List Component) (validations : List Validation) :
    Except Fault Unit := do
  checkComponents [] components
  checkValidations validations

/-- A component's line. -/
def Component.score (c : Component) : ComponentScore := ⟨c.name, fourPlaces c.frequency, c⟩

/-- The final score: the mean frequency, attenuated. -/
def finalScore (components : List Component) (validations : List Validation) : Binary64 :=
  meanOf (components.map Component.frequency) * multiplier (passRate validations)

/-- The report of components and validations. The band and the readiness are those of the figures
before rounding. -/
def report (config : ScoringConfig) (components : List Component) (validations : List Validation)
    (now : Instant) : Report :=
  let rate := passRate validations
  let score := finalScore components validations
  let band := config.thresholds.classify score
  { timestamp := now
    version := config.version
    totalScore := fourPlaces score
    band
    components := components.map Component.score
    validations
    passRate := fourPlaces rate
    multiplier := fourPlaces (multiplier rate)
    readyForFinalReview :=
      config.readinessThreshold.le score && config.minPassRate.le rate
    recommendation := band.recommendation
    missing := missingLevels validations config.requiredValidations }

/-- Check the inputs and report them. -/
def checkedReport (config : ScoringConfig) (components : List Component)
    (validations : List Validation) (now : Instant) : Except Fault Report := do
  checkInputs components validations
  return report config components validations now

/-- Check the configuration, check the inputs, and report them. -/
def aggregate (components : List Component) (validations : List Validation)
    (config : ScoringConfig) (now : Instant) : Except Fault Report := do
  config.check
  checkedReport config components validations now

/-- A checked configuration and the inputs gathered so far. -/
structure Aggregator where
  config : ScoringConfig
  components : List Component
  validations : List Validation

namespace Aggregator

/-- An aggregator for a configuration without faults. -/
def new (config : ScoringConfig) : Except Fault Aggregator := do
  config.check
  return ⟨config, [], []⟩

/-- An aggregator for the standard configuration. -/
def standard : Aggregator := ⟨.standard, [], []⟩

/-- One more component. -/
def addComponent (a : Aggregator) (c : Component) : Aggregator :=
  { a with components := a.components ++ [c] }

/-- One more validation. -/
def addValidation (a : Aggregator) (v : Validation) : Aggregator :=
  { a with validations := a.validations ++ [v] }

/-- The report of the inputs gathered so far. -/
def compute (a : Aggregator) (now : Instant) : Except Fault Report :=
  checkedReport a.config a.components a.validations now

/-- The report of other inputs under the same configuration. -/
def aggregate (a : Aggregator) (components : List Component) (validations : List Validation)
    (now : Instant) : Except Fault Report :=
  checkedReport a.config components validations now

end Aggregator

end ReleaseGate
