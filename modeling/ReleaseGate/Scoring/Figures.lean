import ReleaseGate.Scoring.Config

/-!
# The figures of a report

Each figure is one expression in binary64 arithmetic, evaluated from left to right.

* `Component.frequency`: the weighted sum of a component's signals.
* `passRate`, `multiplier`: the share of validations that passed, and what it does to a score.
* `fourPlaces`: a figure rounded for display.
* `meanOf`: the mean of frequencies.
-/

namespace ReleaseGate

/-- The weight of coherence. -/
def weightCoherence : Binary64 := 0.25

/-- The weight of alignment. -/
def weightAlignment : Binary64 := 0.25

/-- The weight of velocity. -/
def weightVelocity : Binary64 := 0.15

/-- The weight of stability. -/
def weightStability : Binary64 := 0.20

/-- The weight of evidence. -/
def weightEvidence : Binary64 := 0.15

/-- The weighted sum of a component's signals, in the order of their declaration. -/
def Component.frequency (c : Component) : Binary64 :=
  c.coherence * weightCoherence + c.alignment * weightAlignment + c.velocity * weightVelocity +
    c.stability * weightStability + c.evidenceScore * weightEvidence

/-- The share of validations that passed; zero if there are none. -/
def passRate (validations : List Validation) : Binary64 :=
  if validations.isEmpty then 0
  else Binary64.ofNat (validations.countP (·.passed)) / Binary64.ofNat validations.length

/-- The multiplier if no validation passed. -/
def multiplierFloor : Binary64 := 0.8

/-- What a perfect pass rate adds to the multiplier. -/
def multiplierSpan : Binary64 := 0.2

/-- What a pass rate does to a score: from 0.8 for none to 1 for all. -/
def multiplier (rate : Binary64) : Binary64 := multiplierFloor + multiplierSpan * rate

/-- A figure rounded to four decimal places, halves away from zero. -/
def fourPlaces (x : Binary64) : Binary64 := Binary64.roundWhole (x * 10000) / 10000

/-- The sum of numbers from left to right, starting at minus zero, which adds nothing to any. -/
def sumOf (xs : List Binary64) : Binary64 := xs.foldl (· + ·) Binary64.negativeZero

/-- The mean of numbers; zero if there are none. -/
def meanOf (xs : List Binary64) : Binary64 :=
  if xs.isEmpty then 0 else sumOf xs / Binary64.ofNat xs.length

/-- The required levels that no passing validation has, in the order they are required. -/
def missingLevels (validations : List Validation) (required : List Level) : List Level :=
  required.filter fun level => !validations.any fun v => v.passed && v.level = level

end ReleaseGate
