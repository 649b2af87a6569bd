import ReleaseGate.Proofs.Binary64.Error
import ReleaseGate.Proofs.Scoring.Acceptance

/-!
# First faults

A configuration and inputs can have many faults at once. All of them are listed here, in the order
in which they are looked for, and each is described by what is wrong, with numbers by their values.
Aggregation gives the first fault of the list, and a report if the list is empty.

Every check finds the faults of its own list, and lists are put together as checks are.

* `Binary64.InUnit`, `inUnitInterval_iff_inUnit`: the unit interval, by values.
* `Thresholds.faults`, `ScoringConfig.faults`: the faults of a configuration.
* `Component.faults`, `componentFaults`, `Validation.faults`: the faults of inputs.
* `Thresholds.check_eq_firstOf`, `checkComponents_eq_firstOf`: the checks, by the faults they find.
* `Admissible`: what is accepted.
* `aggregate_firstFault`: aggregation accepts exactly that, and else gives the first fault.
-/

namespace ReleaseGate

open Binary64 (InOrder)

/-! ## The unit interval -/

/-- A finite number with a value from zero to one. -/
def Binary64.InUnit (x : Binary64) : Prop := x.isFinite = true ∧ 0 ≤ x.value ∧ x.value ≤ 1

instance (x : Binary64) : Decidable x.InUnit :=
  inferInstanceAs (Decidable (x.isFinite = true ∧ 0 ≤ x.value ∧ x.value ≤ 1))

theorem Binary64.inUnit_iff {x : Binary64} : x.InUnit ↔ InOrder 1 x x := by
  constructor
  · rintro ⟨hfinite, hzero, hone⟩
    exact .of_value hfinite hzero (by rwa [Nat.cast_one]) (by decide)
  · intro h
    obtain ⟨r, hx, htop⟩ := h.exists_at (by decide)
    have hone := h.value_le (by decide)
    rw [Nat.cast_one] at hone
    exact ⟨(isFinite_iff hx).mpr htop, h.value_nonneg, hone⟩

theorem inUnitInterval_iff_inUnit {x : Binary64} : inUnitInterval x = true ↔ x.InUnit := by
  rw [inUnitInterval_iff, Binary64.inUnit_iff]

/-- The values outside the unit interval, in order. -/
def outside (values : List (String × Binary64)) : List (String × Binary64) :=
  values.filter fun value => ¬value.2.InUnit

theorem find?_not_inUnitInterval (values : List (String × Binary64)) :
    values.find? (fun value => !inUnitInterval value.2) = (outside values).head? := by
  rw [outside, List.head?_filter]
  refine congrArg (List.find? · values) (funext fun value => ?_)
  rw [Bool.eq_iff_iff, Bool.not_eq_true', decide_eq_true_iff, ← inUnitInterval_iff_inUnit,
    Bool.not_eq_true]

theorem outside_eq_nil {values : List (String × Binary64)} :
    outside values = [] ↔ ∀ value ∈ values, value.2.InUnit := by
  rw [outside, List.filter_eq_nil_iff]
  simp only [decide_eq_true_eq, not_not]

/-! ## Faults of configurations -/

namespace Thresholds

/-- Neighbours of which the second one is not above the first. -/
def descents (thresholds : List (String × Binary64)) :
    List ((String × Binary64) × (String × Binary64)) :=
  (thresholds.zip thresholds.tail).filter fun pair => pair.2.2.value ≤ pair.1.2.value

/-- The faults of thresholds: those outside the unit interval, then those that do not ascend. -/
def faults (t : Thresholds) : List Fault :=
  (outside t.ordered).map (fun threshold =>
    .configuration (.thresholdOutOfRange threshold.1 threshold.2)) ++
  (descents t.ordered).map fun pair =>
    .configuration (.thresholdsNotAscending pair.1.1 pair.1.2 pair.2.1 pair.2.2)

theorem checkRange_eq_firstOf (thresholds : List (String × Binary64)) :
    checkRange thresholds = firstOf ((outside thresholds).map fun threshold =>
      .configuration (.thresholdOutOfRange threshold.1 threshold.2)) := by
  rw [checkRange, find?_not_inUnitInterval]
  cases outside thresholds <;> rfl

theorem descents_cons (lower upper : String × Binary64) (rest : List (String × Binary64)) :
    descents (lower :: upper :: rest) =
      if upper.2.value ≤ lower.2.value then (lower, upper) :: descents (upper :: rest)
      else descents (upper :: rest) := by
  simp only [descents, List.tail_cons, List.zip_cons_cons, List.filter_cons, decide_eq_true_eq]

/-- In the unit interval, thresholds are compared as their values are. -/
theorem checkAscending_eq_firstOf {thresholds : List (String × Binary64)}
    (h : ∀ threshold ∈ thresholds, threshold.2.InUnit) :
    checkAscending thresholds = firstOf ((descents thresholds).map fun pair =>
      .configuration (.thresholdsNotAscending pair.1.1 pair.1.2 pair.2.1 pair.2.2)) := by
  match thresholds with
  | [] => rfl
  | [_] => rfl
  | lower :: upper :: rest =>
    have hlower := Binary64.inUnit_iff.mp (h lower List.mem_cons_self)
    have hrest := fun threshold hthreshold => h threshold (List.mem_cons_of_mem lower hthreshold)
    have hupper := Binary64.inUnit_iff.mp (hrest upper List.mem_cons_self)
    rw [checkAscending, descents_cons, checkAscending_eq_firstOf hrest]
    simp only [hupper.le_iff_value hlower]
    by_cases hle : upper.2.value ≤ lower.2.value
    · rw [if_pos hle, if_pos hle]
      rfl
    · rw [if_neg hle, if_neg hle]

theorem check_eq_firstOf (t : Thresholds) : t.check = firstOf t.faults := by
  rw [check, checkRange_eq_firstOf]
  refine seq_firstOf fun hnone => checkAscending_eq_firstOf ?_
  rwa [List.map_eq_nil_iff, outside_eq_nil] at hnone

end Thresholds

namespace ScoringConfig

/-- The faults of a configuration: those of its thresholds, then the limits outside the unit
interval. -/
def faults (config : ScoringConfig) : List Fault :=
  config.thresholds.faults ++
    (outside [("readiness_threshold", config.readinessThreshold),
      ("min_pass_rate", config.minPassRate)]).map fun setting =>
        .configuration (.settingOutOfRange setting.1 setting.2)

theorem checkSetting_eq_firstOf (name : String) (value : Binary64) :
    checkSetting name value = firstOf ((outside [(name, value)]).map fun setting =>
      .configuration (.settingOutOfRange setting.1 setting.2)) := by
  rw [checkSetting]
  by_cases hunit : value.InUnit
  · rw [if_pos (inUnitInterval_iff_inUnit.mpr hunit), outside_eq_nil.mpr (by simpa using hunit)]
    rfl
  · rw [if_neg (mt inUnitInterval_iff_inUnit.mp hunit)]
    simp [outside, hunit, firstOf]

theorem check_eq_firstOf (config : ScoringConfig) : config.check = firstOf config.faults := by
  have houtside (first second : String × Binary64) :
      outside [first, second] = outside [first] ++ outside [second] := by
    rw [outside, ← List.singleton_append, List.filter_append]
    rfl
  rw [check, Thresholds.check_eq_firstOf, checkSetting_eq_firstOf, checkSetting_eq_firstOf,
    ← firstOf_append, ← firstOf_append, ← List.map_append, ← houtside, faults]

/-- Every fault of a configuration is found to be one. -/
theorem exists_of_mem_faults {config : ScoringConfig} {fault : Fault} (h : fault ∈ config.faults) :
    ∃ problem, fault = .configuration problem := by
  simp only [faults, Thresholds.faults, List.mem_append, List.mem_map] at h
  rcases h with (⟨_, -, rfl⟩ | ⟨_, -, rfl⟩) | ⟨_, -, rfl⟩ <;> exact ⟨_, rfl⟩

end ScoringConfig

/-! ## Faults of inputs -/

namespace Component

/-- The faults of a component by itself: a blank name, then signals outside the unit interval. -/
def faults (c : Component) : List Fault :=
  (if Speaks c.name then [] else [.invalidInput .blankComponentName]) ++
    (outside c.dimensions).map fun dimension =>
      .invalidInput (.dimensionOutOfRange c.name dimension.1 dimension.2)

/-- The fault of a component with a name that has occurred among earlier ones. -/
def repetition (earlier : List Component) (c : Component) : List Fault :=
  if c.name ∈ earlier.map name then [.invalidInput (.repeatedComponent c.name)] else []

theorem check_eq_firstOf (c : Component) : c.check = firstOf c.faults := by
  rw [check, faults]
  simp only [isBlankText_eq_true, ite_not]
  by_cases hname : Speaks c.name
  · rw [if_pos hname, if_pos hname, checkDimensions, find?_not_inUnitInterval]
    cases outside c.dimensions <;> rfl
  · rw [if_neg hname, if_neg hname]
    rfl

end Component

/-- The faults of a component at its place among components: those of the component by itself, then
that its name has occurred earlier. -/
def faultsAt (components : List Component) (place : Component × Nat) : List Fault :=
  place.1.faults ++ place.1.repetition (components.take place.2)

/-- The faults of components, one after the other. -/
def componentFaults (components : List Component) : List Fault :=
  components.zipIdx.flatMap (faultsAt components)

/-- Components are checked behind those whose names were seen already. -/
theorem checkComponents_eq_firstOf (before rest : List Component) {seen : List String}
    (hseen : ∀ name, name ∈ seen ↔ name ∈ before.map Component.name) :
    checkComponents seen rest =
      firstOf ((rest.zipIdx before.length).flatMap (faultsAt (before ++ rest))) := by
  induction rest generalizing before seen with
  | nil => rfl
  | cons c rest ih =>
    have hnext : ∀ name, name ∈ c.name :: seen ↔ name ∈ (before ++ [c]).map Component.name := by
      intro name
      simp [hseen, or_comm]
    have hrest := ih (before ++ [c]) hnext
    rw [List.length_append, List.length_singleton, List.append_assoc, List.singleton_append]
      at hrest
    rw [checkComponents, List.zipIdx_cons, List.flatMap_cons, faultsAt, List.take_left,
      List.append_assoc, firstOf_append, firstOf_append, Component.check_eq_firstOf, ← hrest]
    refine congrArg _ (funext fun _ => ?_)
    by_cases hmem : c.name ∈ before.map Component.name
    · rw [if_pos (List.contains_iff_mem.mpr ((hseen c.name).mpr hmem)), Component.repetition,
        if_pos hmem]
      rfl
    · rw [if_neg (mt List.contains_iff_mem.mp (mt (hseen c.name).mp hmem)), Component.repetition,
        if_neg hmem]
      rfl

/-- The faults of a validation: a blank validator, then a score outside the unit interval. -/
def Validation.faults (v : Validation) : List Fault :=
  (if Speaks v.validatorId then [] else [.invalidInput .blankValidator]) ++
    if v.score.InUnit then [] else [.invalidInput (.scoreOutOfRange v.validatorId v.score)]

theorem Validation.check_eq_firstOf (v : Validation) : v.check = firstOf v.faults := by
  rw [check, faults]
  simp only [isBlankText_eq_true, inUnitInterval_iff_inUnit, ite_not]
  by_cases hvalidator : Speaks v.validatorId
  · by_cases hscore : v.score.InUnit
    · rw [if_pos hvalidator, if_pos hvalidator, if_pos hscore, if_pos hscore]
      rfl
    · rw [if_pos hvalidator, if_pos hvalidator, if_neg hscore, if_neg hscore]
      rfl
  · rw [if_neg hvalidator, if_neg hvalidator]
    rfl

theorem checkValidations_eq_firstOf (validations : List Validation) :
    checkValidations validations = firstOf (validations.flatMap Validation.faults) := by
  induction validations with
  | nil => rfl
  | cons v rest ih =>
    rw [checkValidations, List.flatMap_cons, firstOf_append, Validation.check_eq_firstOf, ih]

/-- The faults of inputs: those of the components, then those of the validations in order. -/
def inputFaults (components : List Component) (validations : List Validation) : List Fault :=
  componentFaults components ++ validations.flatMap Validation.faults

theorem checkInputs_eq_firstOf (components : List Component) (validations : List Validation) :
    checkInputs components validations = firstOf (inputFaults components validations) := by
  have hcomponents : checkComponents [] components = firstOf (componentFaults components) :=
    checkComponents_eq_firstOf [] components fun _ => Iff.rfl
  rw [checkInputs, hcomponents, checkValidations_eq_firstOf, inputFaults, firstOf_append]

/-- Every fault of inputs is found to be one. -/
theorem exists_of_mem_inputFaults {components : List Component} {validations : List Validation}
    {fault : Fault} (h : fault ∈ inputFaults components validations) :
    ∃ problem, fault = .invalidInput problem := by
  simp only [inputFaults, componentFaults, faultsAt, Component.faults, Component.repetition,
    Validation.faults, List.mem_append, List.mem_flatMap, List.mem_map, List.mem_ite_nil_left,
    List.mem_ite_nil_right, List.mem_singleton] at h
  rcases h with ⟨_, -, (⟨-, rfl⟩ | ⟨_, -, rfl⟩) | ⟨-, rfl⟩⟩ | ⟨_, -, ⟨-, rfl⟩ | ⟨-, rfl⟩⟩ <;>
    exact ⟨_, rfl⟩

/-! ## Aggregation -/

/-- All faults of a configuration and inputs, in the order in which they are looked for. -/
def allFaults (config : ScoringConfig) (components : List Component)
    (validations : List Validation) : List Fault :=
  config.faults ++ inputFaults components validations

theorem aggregate_eq_firstOf (components : List Component) (validations : List Validation)
    (config : ScoringConfig) (now : Instant) : aggregate components validations config now = (do
      firstOf (allFaults config components validations)
      return report config components validations now) := by
  rw [aggregate, checkedReport, ScoringConfig.check_eq_firstOf, checkInputs_eq_firstOf, allFaults,
    firstOf_append, bind_assoc]

/-- A configuration and inputs that nothing is wrong with. -/
structure Admissible (config : ScoringConfig) (components : List Component)
    (validations : List Validation) : Prop where
  thresholds : ∀ threshold ∈ config.thresholds.ordered, threshold.2.InUnit
  critical_lt : config.thresholds.critical.value < config.thresholds.low.value
  low_lt : config.thresholds.low.value < config.thresholds.nominal.value
  nominal_lt : config.thresholds.nominal.value < config.thresholds.optimal.value
  readinessThreshold : config.readinessThreshold.InUnit
  minPassRate : config.minPassRate.InUnit
  named : ∀ c ∈ components, Speaks c.name
  signals : ∀ c ∈ components, ∀ d ∈ c.dimensions, d.2.InUnit
  distinct : components.Pairwise fun c d => c.name ≠ d.name
  signed : ∀ v ∈ validations, Speaks v.validatorId
  scores : ∀ v ∈ validations, v.score.InUnit

/-- Thresholds that nothing is wrong with are sound, and the other way round. -/
theorem Thresholds.sound_iff {t : Thresholds} : t.Sound ↔
    (∀ threshold ∈ t.ordered, threshold.2.InUnit) ∧ t.critical.value < t.low.value ∧
      t.low.value < t.nominal.value ∧ t.nominal.value < t.optimal.value := by
  have hlt (hunit : ∀ threshold ∈ t.ordered, threshold.2.InUnit) :
      (t.critical.lt t.low = true ↔ t.critical.value < t.low.value) ∧
      (t.low.lt t.nominal = true ↔ t.low.value < t.nominal.value) ∧
      (t.nominal.lt t.optimal = true ↔ t.nominal.value < t.optimal.value) := by
    simp only [Binary64.inUnit_iff] at hunit
    obtain ⟨hcritical, hlow, hnominal, hoptimal⟩ :=
      (forall_mem_ordered fun value => InOrder 1 value value).mp hunit
    exact ⟨hcritical.lt_iff_value hlow, hlow.lt_iff_value hnominal,
      hnominal.lt_iff_value hoptimal⟩
  constructor
  · intro h
    have hunit : ∀ threshold ∈ t.ordered, threshold.2.InUnit := fun threshold hthreshold =>
      inUnitInterval_iff_inUnit.mp (h.inUnit threshold hthreshold)
    obtain ⟨hcritical, hlow, hnominal⟩ := hlt hunit
    exact ⟨hunit, hcritical.mp h.critical_lt, hlow.mp h.low_lt, hnominal.mp h.nominal_lt⟩
  · rintro ⟨hunit, hcritical_lt, hlow_lt, hnominal_lt⟩
    obtain ⟨hcritical, hlow, hnominal⟩ := hlt hunit
    exact ⟨fun threshold hthreshold => inUnitInterval_iff_inUnit.mpr (hunit threshold hthreshold),
      hcritical.mpr hcritical_lt, hlow.mpr hlow_lt, hnominal.mpr hnominal_lt⟩

section Admissible

variable {config : ScoringConfig} {components : List Component} {validations : List Validation}

/-- What nothing is wrong with is sound, and the other way round. -/
theorem admissible_iff : Admissible config components validations ↔
    config.Sound ∧ SoundInputs components validations := by
  constructor
  · intro h
    refine ⟨⟨Thresholds.sound_iff.mpr ⟨h.thresholds, h.critical_lt, h.low_lt, h.nominal_lt⟩,
      inUnitInterval_iff_inUnit.mpr h.readinessThreshold,
      inUnitInterval_iff_inUnit.mpr h.minPassRate⟩, ?_, ?_, ?_⟩
    · exact fun c hc => ⟨h.named c hc, fun d hd =>
        inUnitInterval_iff_inUnit.mpr (h.signals c hc d hd)⟩
    · exact List.pairwise_map.mpr h.distinct
    · exact fun v hv => ⟨h.signed v hv, inUnitInterval_iff_inUnit.mpr (h.scores v hv)⟩
  · rintro ⟨hconfig, hinputs⟩
    obtain ⟨hunit, hcritical, hlow, hnominal⟩ := Thresholds.sound_iff.mp hconfig.thresholds
    exact {
      thresholds := hunit
      critical_lt := hcritical
      low_lt := hlow
      nominal_lt := hnominal
      readinessThreshold := inUnitInterval_iff_inUnit.mp hconfig.readinessThreshold
      minPassRate := inUnitInterval_iff_inUnit.mp hconfig.minPassRate
      named := fun c hc => (hinputs.sound_components c hc).named
      signals := fun c hc d hd =>
        inUnitInterval_iff_inUnit.mp ((hinputs.sound_components c hc).inUnit d hd)
      distinct := List.pairwise_map.mp hinputs.nodup_names
      signed := fun v hv => (hinputs.sound_validations v hv).signed
      scores := fun v hv => inUnitInterval_iff_inUnit.mp (hinputs.sound_validations v hv).inUnit }

end Admissible

/-- A report that keeps what it was made from, all of it and in the same order. -/
structure Report.Keeps (r : Report) (config : ScoringConfig) (components : List Component)
    (validations : List Validation) : Prop where
  names : r.components.map (·.name) = components.map (·.name)
  metrics : r.components.map (·.metrics) = components
  validations : r.validations = validations
  version : r.version = config.version

theorem report_keeps (config : ScoringConfig) (components : List Component)
    (validations : List Validation) (now : Instant) :
    (report config components validations now).Keeps config components validations where
  names := List.map_map
  metrics := by
    show (components.map Component.score).map (·.metrics) = components
    rw [List.map_map]
    exact List.map_id _
  validations := rfl
  version := rfl

/-- Aggregation accepts exactly what nothing is wrong with. Of anything else it gives the first
fault, and those of the configuration come before those of the inputs. A report keeps all that was
accepted. -/
theorem aggregate_firstFault (components : List Component) (validations : List Validation)
    (config : ScoringConfig) (now : Instant) :
    ((∃ r, aggregate components validations config now = .ok r) ↔
      Admissible config components validations) ∧
    (∀ fault, aggregate components validations config now = .error fault ↔
      (allFaults config components validations).head? = some fault) ∧
    (∀ fault ∈ config.faults, ∃ problem, fault = .configuration problem) ∧
    (∀ fault ∈ inputFaults components validations, ∃ problem, fault = .invalidInput problem) ∧
    (∀ r, aggregate components validations config now = .ok r →
      r.Keeps config components validations) := by
  refine ⟨?_, ?_, fun _ => ScoringConfig.exists_of_mem_faults, fun _ => exists_of_mem_inputFaults,
    ?_⟩
  · rw [admissible_iff]
    constructor
    · rintro ⟨r, hr⟩
      obtain ⟨hconfig, hinputs, -⟩ := aggregate_eq_ok.mp hr
      exact ⟨hconfig, hinputs⟩
    · rintro ⟨hconfig, hinputs⟩
      exact ⟨_, aggregate_eq_ok.mpr ⟨hconfig, hinputs, rfl⟩⟩
  · intro fault
    rw [aggregate_eq_firstOf, seq_eq_error, firstOf_eq_error]
    exact or_iff_left fun h => nomatch h.2
  · intro r hr
    obtain ⟨-, -, rfl⟩ := aggregate_eq_ok.mp hr
    exact report_keeps config components validations now

end ReleaseGate
