import Mathlib.Data.List.Nodup
import ReleaseGate.Proofs.Binary64.Order
import ReleaseGate.Proofs.Checks
import ReleaseGate.Scoring.Aggregate

/-!
# Accepted inputs

Aggregation accepts a configuration, components and validations exactly if each is sound by itself
and no two components share a name. What it then gives is their report.

* `inUnitInterval_iff`: the unit interval, by ranks.
* `Thresholds.check_eq_ok`, `ScoringConfig.check_eq_ok`: the configurations that are accepted.
* `Component.check_eq_ok`, `Validation.check_eq_ok`, `checkInputs_eq_ok`: the inputs that are.
* `aggregate_eq_ok`: all of them together.
-/

namespace ReleaseGate

open Binary64 (InOrder)

/-! ## The unit interval -/

theorem inUnitInterval_iff {x : Binary64} : inUnitInterval x = true ↔ InOrder 1 x x := by
  rw [inUnitInterval, Bool.and_eq_true, Bool.and_eq_true]
  constructor
  · rintro ⟨⟨-, hzero⟩, hone⟩
    obtain ⟨r, hx, -⟩ := Binary64.at_nat_zero.exists_of_le hzero
    exact ⟨r, r, hx, hx, Nat.le_refl r, (Binary64.le_iff hx Binary64.at_one).mp hone⟩
  · rintro ⟨r, s, hx, hx', -, hbound⟩
    obtain rfl := hx.unique hx'
    refine ⟨⟨?_, ?_⟩, ?_⟩
    · rw [Binary64.isFinite_iff hx]
      exact hbound.trans_lt (Binary64.wholeRank_lt_topRank (by decide))
    · rw [Binary64.le_iff Binary64.at_nat_zero hx]
      exact Nat.zero_le r
    · rwa [Binary64.le_iff hx Binary64.at_one]

/-- No value is found outside the unit interval if all are inside. -/
private theorem find?_outside_eq_none {values : List (String × Binary64)} :
    values.find? (fun value => !inUnitInterval value.2) = none ↔
      ∀ value ∈ values, inUnitInterval value.2 = true := by
  simp only [List.find?_eq_none, Bool.not_eq_true', Bool.not_eq_false]

/-! ## Configurations -/

/-- Thresholds that lie in the unit interval and ascend strictly. -/
structure Thresholds.Sound (t : Thresholds) : Prop where
  inUnit : ∀ threshold ∈ t.ordered, inUnitInterval threshold.2 = true
  critical_lt : t.critical.lt t.low = true
  low_lt : t.low.lt t.nominal = true
  nominal_lt : t.nominal.lt t.optimal = true

namespace Thresholds

variable {t : Thresholds}

theorem checkRange_eq_ok {thresholds : List (String × Binary64)} :
    checkRange thresholds = .ok () ↔
      ∀ threshold ∈ thresholds, inUnitInterval threshold.2 = true := by
  rw [← find?_outside_eq_none, checkRange]
  cases thresholds.find? fun t => !inUnitInterval t.2 with
  | none => simp
  | some => simp

theorem checkAscending_ordered_eq_ok : checkAscending t.ordered = .ok () ↔
    t.low.le t.critical = false ∧ t.nominal.le t.low = false ∧ t.optimal.le t.nominal = false := by
  simp only [ordered, checkAscending]
  cases t.low.le t.critical <;> cases t.nominal.le t.low <;> cases t.optimal.le t.nominal <;> simp

theorem forall_mem_ordered (p : Binary64 → Prop) : (∀ threshold ∈ t.ordered, p threshold.2) ↔
    p t.critical ∧ p t.low ∧ p t.nominal ∧ p t.optimal := by
  simp [ordered]

/-- Thresholds are accepted exactly if they are sound. -/
theorem check_eq_ok : t.check = .ok () ↔ t.Sound := by
  have hascending (hunit : ∀ threshold ∈ t.ordered, inUnitInterval threshold.2 = true) :
      t.low.le t.critical = false ∧ t.nominal.le t.low = false ∧ t.optimal.le t.nominal = false ↔
        t.critical.lt t.low = true ∧ t.low.lt t.nominal = true ∧ t.nominal.lt t.optimal = true := by
    simp only [inUnitInterval_iff] at hunit
    obtain ⟨hcritical, hlow, hnominal, hoptimal⟩ :=
      (forall_mem_ordered fun value => InOrder 1 value value).mp hunit
    rw [hlow.le_eq_false_iff hcritical, hnominal.le_eq_false_iff hlow,
      hoptimal.le_eq_false_iff hnominal]
  rw [check, seq_eq_ok, checkRange_eq_ok, checkAscending_ordered_eq_ok]
  constructor
  · rintro ⟨hunit, hordered⟩
    obtain ⟨hcritical, hlow, hnominal⟩ := (hascending hunit).mp hordered
    exact ⟨hunit, hcritical, hlow, hnominal⟩
  · intro h
    exact ⟨h.inUnit, (hascending h.inUnit).mpr ⟨h.critical_lt, h.low_lt, h.nominal_lt⟩⟩

end Thresholds

namespace ScoringConfig

variable {config : ScoringConfig}

/-- A configuration with sound thresholds and limits in the unit interval. -/
structure Sound (config : ScoringConfig) : Prop where
  thresholds : config.thresholds.Sound
  readinessThreshold : inUnitInterval config.readinessThreshold = true
  minPassRate : inUnitInterval config.minPassRate = true

theorem checkSetting_eq_ok {name : String} {value : Binary64} :
    checkSetting name value = .ok () ↔ inUnitInterval value = true := by
  rw [checkSetting]
  cases inUnitInterval value <;> simp

/-- A configuration is accepted exactly if it is sound. -/
theorem check_eq_ok : config.check = .ok () ↔ config.Sound := by
  rw [check, seq_eq_ok, seq_eq_ok, Thresholds.check_eq_ok, checkSetting_eq_ok, checkSetting_eq_ok]
  constructor
  · rintro ⟨hthresholds, hreadiness, hrate⟩
    exact ⟨hthresholds, hreadiness, hrate⟩
  · rintro ⟨hthresholds, hreadiness, hrate⟩
    exact ⟨hthresholds, hreadiness, hrate⟩

end ScoringConfig

/-! ## Inputs -/

/-- A component with a name and signals in the unit interval. -/
structure Component.Sound (c : Component) : Prop where
  named : Speaks c.name
  inUnit : ∀ d ∈ c.dimensions, inUnitInterval d.2 = true

theorem Component.checkDimensions_eq_ok {name : String} {dimensions : List (String × Binary64)} :
    checkDimensions name dimensions = .ok () ↔
      ∀ d ∈ dimensions, inUnitInterval d.2 = true := by
  rw [← find?_outside_eq_none, checkDimensions]
  cases dimensions.find? fun d => !inUnitInterval d.2 with
  | none => simp
  | some => simp

/-- A component is accepted exactly if it is sound. -/
theorem Component.check_eq_ok {c : Component} : c.check = .ok () ↔ c.Sound := by
  rw [check]
  cases hblank : isBlankText c.name with
  | true =>
    refine ⟨nofun, fun h => ?_⟩
    rw [isBlankText_eq_false.mpr h.named] at hblank
    cases hblank
  | false =>
    rw [if_neg Bool.false_ne_true, checkDimensions_eq_ok]
    exact ⟨fun h => ⟨isBlankText_eq_false.mp hblank, h⟩, Sound.inUnit⟩

/-- A validation with a validator and a score in the unit interval. -/
structure Validation.Sound (v : Validation) : Prop where
  signed : Speaks v.validatorId
  inUnit : inUnitInterval v.score = true

/-- A validation is accepted exactly if it is sound. -/
theorem Validation.check_eq_ok {v : Validation} : v.check = .ok () ↔ v.Sound := by
  rw [check]
  cases hblank : isBlankText v.validatorId with
  | true =>
    refine ⟨nofun, fun h => ?_⟩
    rw [isBlankText_eq_false.mpr h.signed] at hblank
    cases hblank
  | false =>
    rw [if_neg Bool.false_ne_true]
    cases hunit : inUnitInterval v.score with
    | true => exact ⟨fun _ => ⟨isBlankText_eq_false.mp hblank, hunit⟩, fun _ => rfl⟩
    | false =>
      refine ⟨nofun, fun h => ?_⟩
      rw [h.inUnit] at hunit
      cases hunit

/-- Components and validations that are sound one by one, where no two components share a name. -/
structure SoundInputs (components : List Component) (validations : List Validation) : Prop where
  sound_components : ∀ c ∈ components, c.Sound
  nodup_names : (components.map Component.name).Nodup
  sound_validations : ∀ v ∈ validations, v.Sound

/-- Components are accepted behind those seen already if they have names of their own. -/
theorem checkComponents_eq_ok {components : List Component} {seen : List String} :
    checkComponents seen components = .ok () ↔ (∀ c ∈ components, c.Sound) ∧
      (components.map Component.name).Nodup ∧ ∀ c ∈ components, c.name ∉ seen := by
  induction components generalizing seen with
  | nil => simp [checkComponents]
  | cons c rest ih =>
    rw [checkComponents, seq_eq_ok, Component.check_eq_ok]
    by_cases hseen : c.name ∈ seen
    · have hcontains : seen.contains c.name = true := List.contains_iff_mem.mpr hseen
      rw [if_pos hcontains]
      refine ⟨fun h => ?_, fun h => ?_⟩
      · cases h.2
      · exact absurd hseen (h.2.2 c List.mem_cons_self)
    · have hcontains : ¬seen.contains c.name = true := mt List.contains_iff_mem.mp hseen
      rw [if_neg hcontains, ih]
      rw [List.forall_mem_cons, List.forall_mem_cons, List.map_cons, List.nodup_cons]
      simp only [List.mem_map, not_exists, not_and, List.mem_cons, not_or]
      constructor
      · rintro ⟨hc, hrest, hnodup, hfresh⟩
        exact ⟨⟨hc, hrest⟩, ⟨fun d hd => (hfresh d hd).1, hnodup⟩, hseen,
          fun d hd => (hfresh d hd).2⟩
      · rintro ⟨⟨hc, hrest⟩, ⟨hname, hnodup⟩, -, hfresh⟩
        exact ⟨hc, hrest, hnodup, fun d hd => ⟨hname d hd, hfresh d hd⟩⟩

theorem checkValidations_eq_ok {validations : List Validation} :
    checkValidations validations = .ok () ↔ ∀ v ∈ validations, v.Sound := by
  induction validations with
  | nil => simp [checkValidations]
  | cons v rest ih =>
    rw [checkValidations, seq_eq_ok, Validation.check_eq_ok, ih, List.forall_mem_cons]

/-- Inputs are accepted exactly if they are sound. -/
theorem checkInputs_eq_ok {components : List Component} {validations : List Validation} :
    checkInputs components validations = .ok () ↔ SoundInputs components validations := by
  rw [checkInputs, seq_eq_ok, checkComponents_eq_ok, checkValidations_eq_ok]
  constructor
  · rintro ⟨⟨hcomponents, hnodup, -⟩, hvalidations⟩
    exact ⟨hcomponents, hnodup, hvalidations⟩
  · rintro ⟨hcomponents, hnodup, hvalidations⟩
    exact ⟨⟨hcomponents, hnodup, fun _ _ => List.not_mem_nil⟩, hvalidations⟩

/-- Aggregation gives the report of sound inputs under a sound configuration, and nothing else. -/
theorem aggregate_eq_ok {components : List Component} {validations : List Validation}
    {config : ScoringConfig} {now : Instant} {r : Report} :
    aggregate components validations config now = .ok r ↔
      config.Sound ∧ SoundInputs components validations ∧
        r = report config components validations now := by
  have hpure : (pure (report config components validations now) : Except Fault Report) = .ok r ↔
      r = report config components validations now :=
    ⟨fun h => (Except.ok.inj h).symm, fun h => h ▸ rfl⟩
  rw [aggregate, seq_eq_ok, checkedReport, seq_eq_ok, ScoringConfig.check_eq_ok, checkInputs_eq_ok,
    hpure]

/-- Inputs that pass all checks are reported. -/
theorem aggregate_of_checks {components : List Component} {validations : List Validation}
    {config : ScoringConfig} (now : Instant) (hconfig : config.check = .ok ())
    (hinputs : checkInputs components validations = .ok ()) :
    aggregate components validations config now =
      .ok (report config components validations now) :=
  aggregate_eq_ok.mpr
    ⟨ScoringConfig.check_eq_ok.mp hconfig, checkInputs_eq_ok.mp hinputs, rfl⟩

theorem ScoringConfig.check_standard : standard.check = .ok () := by decide +kernel

end ReleaseGate
