import ReleaseGate.Report

/-!
# Band thresholds

Four thresholds part the scores into five bands; each is the exclusive upper bound of its band.

* `Thresholds.classify`: the band of a score.
* `Thresholds.check`: thresholds lie in the unit interval and ascend strictly.
-/

namespace ReleaseGate

/-- The exclusive upper bounds of the four lower bands. -/
structure Thresholds where
  critical : Binary64
  low : Binary64
  nominal : Binary64
  optimal : Binary64
  deriving DecidableEq

namespace Thresholds

/-- The thresholds used unless others are configured. -/
def standard : Thresholds := ⟨0.3, 0.5, 0.7, 0.9⟩

instance : Inhabited Thresholds := ⟨standard⟩

/-- The thresholds by name, in order. -/
def ordered (t : Thresholds) : List (String × Binary64) :=
  [("critical", t.critical), ("low", t.low), ("nominal", t.nominal), ("optimal", t.optimal)]

/-- The first band whose threshold exceeds the score, else the peak. -/
def classify (t : Thresholds) (score : Binary64) : Band :=
  if score.lt t.critical then .critical
  else if score.lt t.low then .low
  else if score.lt t.nominal then .nominal
  else if score.lt t.optimal then .optimal
  else .peak

/-- Each threshold lies in the unit interval. -/
def checkRange (thresholds : List (String × Binary64)) : Except Fault Unit :=
  match thresholds.find? fun t => !inUnitInterval t.2 with
  | some (name, value) => .error (.configuration (.thresholdOutOfRange name value))
  | none => .ok ()

/-- Each threshold exceeds the one before it. -/
def checkAscending : List (String × Binary64) → Except Fault Unit
  | lower :: upper :: rest =>
    if upper.2.le lower.2 then
      .error (.configuration (.thresholdsNotAscending lower.1 lower.2 upper.1 upper.2))
    else checkAscending (upper :: rest)
  | _ => .ok ()

/-- Thresholds lie in the unit interval and ascend strictly; ranges are checked first. -/
def check (t : Thresholds) : Except Fault Unit := do
  checkRange t.ordered
  checkAscending t.ordered

/-- Thresholds as a record. -/
def content (t : Thresholds) : Content :=
  .record (t.ordered.map fun (key, value) => (key, .real value))

/-- The thresholds of a record, all four of them. -/
def read? {ν : Type} [Document ν] (node : ν) : Option Thresholds := do
  let fields ← Document.record? ["critical", "low", "nominal", "optimal"] node
  let critical ← fields.required "critical" Document.real?
  let low ← fields.required "low" Document.real?
  let nominal ← fields.required "nominal" Document.real?
  let optimal ← fields.required "optimal" Document.real?
  return { critical, low, nominal, optimal }

end Thresholds

end ReleaseGate
