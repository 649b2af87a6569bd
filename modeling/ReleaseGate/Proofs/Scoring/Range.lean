import ReleaseGate.Proofs.Scoring.Figures
import ReleaseGate.Time.Epoch

/-!
# Figures stay in range

Nothing is clamped in an aggregation, and nothing needs to be: whatever is rounded on the way,
shares and scores stay in the unit interval and multipliers at 0.8 at least.

* `SoundInputs.signalsInOrder`, `SoundInputs.inOrder_finalScore`: what sound inputs are worth.
* `FiguresInRange`, `aggregate_inRange`: the figures of a report and what they are rounded from.
-/

namespace ReleaseGate

open Binary64 (InOrder)

section SoundInputs

variable {components components' : List Component} {validations validations' : List Validation}

theorem SoundInputs.perm (h : SoundInputs components validations)
    (hcomponents : components'.Perm components) (hvalidations : validations'.Perm validations) :
    SoundInputs components' validations' where
  sound_components c hc := h.sound_components c (hcomponents.mem_iff.mp hc)
  nodup_names := (hcomponents.map Component.name).nodup_iff.mpr h.nodup_names
  sound_validations v hv := h.sound_validations v (hvalidations.mem_iff.mp hv)

theorem SoundInputs.signalsInOrder (h : SoundInputs components validations) :
    List.Forall₂ Component.SignalsInOrder components components :=
  List.forall₂_same.mpr fun c hc => (h.sound_components c hc).signalsInOrder

theorem SoundInputs.frequencies (h : SoundInputs components validations) :
    ∀ x ∈ components.map Component.frequency, InOrder 1 x x := by
  intro x hx
  obtain ⟨c, hc, rfl⟩ := List.mem_map.mp hx
  exact (h.sound_components c hc).signalsInOrder.frequency

theorem SoundInputs.inOrder_finalScore (h : SoundInputs components validations)
    (h64 : validations.length < 2 ^ 64) :
    InOrder 1 (finalScore components validations) (finalScore components validations) :=
  ReleaseGate.inOrder_finalScore h.signalsInOrder (inOrder_passRate h64)

end SoundInputs

/-- The figures of a report of components and validations, before they are rounded for display and
as they are reported. -/
structure FiguresInRange (components : List Component) (validations : List Validation)
    (r : Report) : Prop where
  frequencies : ∀ c ∈ components, inUnitInterval c.frequency = true
  reportedFrequencies : ∀ s ∈ r.components, inUnitInterval s.frequency = true
  score : inUnitInterval (finalScore components validations) = true
  reportedScore : inUnitInterval r.totalScore = true
  rate : inUnitInterval (passRate validations) = true
  reportedRate : inUnitInterval r.passRate = true
  factor : Binary64.le 0.8 (multiplier (passRate validations)) = true ∧
    inUnitInterval (multiplier (passRate validations)) = true
  reportedFactor : Binary64.le 0.8 r.multiplier = true ∧ inUnitInterval r.multiplier = true
  /-- Without validations nothing is added to the least factor. -/
  factor_of_nil : validations = [] →
    multiplier (passRate validations) = 0.8 ∧ r.multiplier = 0.8

/-- Every figure of an aggregation is a finite number in its range. There may be any number of
components; of validations there are as many as a machine word can count. -/
theorem aggregate_inRange {components : List Component} {validations : List Validation}
    {config : ScoringConfig} {now : Instant} {r : Report}
    (h : aggregate components validations config now = .ok r)
    (h64 : validations.length < 2 ^ 64) : FiguresInRange components validations r := by
  obtain ⟨-, hsound, rfl⟩ := aggregate_eq_ok.mp h
  have hfrequency : ∀ c ∈ components, InOrder 1 c.frequency c.frequency := fun c hc =>
    (hsound.sound_components c hc).signalsInOrder.frequency
  have hscore := hsound.inOrder_finalScore h64
  have hrate := inOrder_passRate h64
  have hmultiplier := inOrder_multiplier hrate
  have hleast : fourPlaces 0.8 = 0.8 := by decide +kernel
  have hfloor : InOrder 1 0.8 (multiplier (passRate validations)) :=
    InOrder.of_le (inUnitInterval_iff.mp (by decide +kernel)) hmultiplier (multiplierFloor_le hrate)
  have hrounded := inOrder_fourPlaces hfloor
  rw [hleast] at hrounded
  constructor
  case frequencies => exact fun c hc => inUnitInterval_iff.mpr (hfrequency c hc)
  case reportedFrequencies =>
    intro s hs
    obtain ⟨c, hc, rfl⟩ := List.mem_map.mp hs
    exact inUnitInterval_iff.mpr (inOrder_fourPlaces (hfrequency c hc))
  case score => exact inUnitInterval_iff.mpr hscore
  case reportedScore => exact inUnitInterval_iff.mpr (inOrder_fourPlaces hscore)
  case rate => exact inUnitInterval_iff.mpr hrate
  case reportedRate => exact inUnitInterval_iff.mpr (inOrder_fourPlaces hrate)
  case factor => exact ⟨hfloor.le, inUnitInterval_iff.mpr hmultiplier⟩
  case reportedFactor =>
    exact ⟨hrounded.le, inUnitInterval_iff.mpr (inOrder_fourPlaces hmultiplier)⟩
  case factor_of_nil =>
    rintro rfl
    have hnone : multiplier (passRate []) = 0.8 := by decide +kernel
    exact ⟨hnone, (congrArg fourPlaces hnone).trans hleast⟩

/-- A component with the best signals there are, and one with zeros below which there is nothing. -/
def extremeComponents : List Component := [.uniform "core" 1, .uniform "edge" .negativeZero]

/-- A perfect validation record. -/
def signOff : List Validation := [⟨.final, "authority", .ofClock 0, true, 1, ""⟩]

theorem aggregate_inRange_extremes :
    aggregate extremeComponents signOff .standard (.ofClock 0) =
        .ok (report .standard extremeComponents signOff (.ofClock 0)) ∧
      signOff.length < 2 ^ 64 ∧
      FiguresInRange extremeComponents signOff
        (report .standard extremeComponents signOff (.ofClock 0)) := by
  have haccepted : aggregate extremeComponents signOff .standard (.ofClock 0) =
      .ok (report .standard extremeComponents signOff (.ofClock 0)) :=
    aggregate_of_checks _ ScoringConfig.check_standard (by decide +kernel)
  exact ⟨haccepted, by decide, aggregate_inRange haccepted (by decide)⟩

end ReleaseGate
