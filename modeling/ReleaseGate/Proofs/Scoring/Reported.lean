import ReleaseGate.Proofs.Scoring.Range

/-!
# What a report shows

The band and the readiness of a report are those of the score before it is rounded for display. If
the limits of a configuration have four places themselves, the figures that are shown tell the same,
but for one case: a score just below a limit may be shown as that limit.

* `Thresholds.ShownIn`, `Thresholds.classify_fourPlaces`: the band of a score that is shown.
* `ScoringConfig.FourPlaces`: configurations whose limits have four places.
* `aggregate_reported`: what a report shows agrees with what it says.
-/

namespace ReleaseGate

open Binary64 (InOrder)

/-! ## Scores and limits -/

section Limits

variable {score limit : Binary64}

/-- A score that reaches a limit of four places is shown as one that does. -/
theorem le_fourPlaces (hscore : InOrder 1 score score) (hlimit : InOrder 1 limit limit)
    (hfixed : fourPlaces limit = limit) (h : limit.le score = true) :
    limit.le (fourPlaces score) = true := by
  have hrounded := inOrder_fourPlaces (hlimit.of_le hscore h)
  rw [hfixed] at hrounded
  exact hrounded.le

/-- A score that is below a limit of four places is shown as one that is, or as the limit. -/
theorem fourPlaces_lt_or_eq (hscore : InOrder 1 score score) (hlimit : InOrder 1 limit limit)
    (hfixed : fourPlaces limit = limit) (h : score.lt limit = true) :
    (fourPlaces score).lt limit = true ∨ fourPlaces score = limit := by
  have hrounded := inOrder_fourPlaces (hscore.of_lt hlimit h)
  rw [hfixed] at hrounded
  obtain ⟨q, -, hq, -, -, -⟩ := hscore
  obtain ⟨s, r, hs, hr, hsr, -⟩ := hrounded
  have hlt := (Binary64.lt_iff hq hr).mp h
  rcases hsr.lt_or_eq with hless | rfl
  · exact .inl ((Binary64.lt_iff hs hr).mpr hless)
  · -- The limit is above some score, so it is not zero, and its rank tells which number it is.
    exact .inr (hs.eq_of_pos hr (by omega))

/-- A score that is shown above a limit of four places reaches it. -/
theorem le_of_lt_fourPlaces (hscore : InOrder 1 score score) (hlimit : InOrder 1 limit limit)
    (hfixed : fourPlaces limit = limit) (h : limit.lt (fourPlaces score) = true) :
    limit.le score = true := by
  by_contra hle
  have hless := (hlimit.le_eq_false_iff hscore).mp (Bool.eq_false_iff.mpr hle)
  have hrounded := inOrder_fourPlaces (hscore.of_lt hlimit hless)
  rw [hfixed] at hrounded
  exact (hrounded.left.not_lt_iff hlimit).mpr hrounded.le h

end Limits

/-! ## Bands -/

namespace Thresholds

/-- The threshold that the scores of a band stay below. -/
def upper? (t : Thresholds) : Band → Option Binary64
  | .critical => some t.critical
  | .low => some t.low
  | .nominal => some t.nominal
  | .optimal => some t.optimal
  | .peak => none

/-- A score of a band is shown in that band, or as the threshold above it, which is in the next
band. -/
def ShownIn (t : Thresholds) (shown : Binary64) (band band' : Band) : Prop :=
  band' = band ∨ t.upper? band = some shown ∧ band'.rank = band.rank + 1

variable {t : Thresholds} {score limit : Binary64}

/-- One threshold: a score below it is shown below it, or as the threshold, and other scores are not
shown below it. -/
theorem shownIn_step {band above above' : Band} (next : Band) (hscore : InOrder 1 score score)
    (hlimit : InOrder 1 limit limit) (hfixed : fourPlaces limit = limit)
    (hupper : t.upper? band = some limit) (hrank : next.rank = band.rank + 1)
    (hnext : fourPlaces score = limit → above' = next)
    (hrest : t.ShownIn (fourPlaces score) above above') :
    t.ShownIn (fourPlaces score) (if score.lt limit then band else above)
      (if (fourPlaces score).lt limit then band else above') := by
  by_cases hbelow : score.lt limit = true
  · rw [if_pos hbelow]
    rcases fourPlaces_lt_or_eq hscore hlimit hfixed hbelow with hless | heq
    · rw [if_pos hless]
      exact .inl rfl
    · rw [hnext heq, heq, Binary64.lt_irrefl, if_neg Bool.false_ne_true]
      exact .inr ⟨hupper, hrank⟩
  · have hreach := (hlimit.not_lt_iff hscore).mp hbelow
    have hshown := le_fourPlaces hscore hlimit hfixed hreach
    rw [if_neg hbelow, if_neg ((hlimit.not_lt_iff (inOrder_fourPlaces hscore)).mpr hshown)]
    exact hrest

theorem classify_fourPlaces (h : t.Sound)
    (hfixed : ∀ threshold ∈ t.ordered, fourPlaces threshold.2 = threshold.2)
    (hscore : InOrder 1 score score) :
    t.ShownIn (fourPlaces score) (t.classify score) (t.classify (fourPlaces score)) := by
  have hunit := h.inUnit
  simp only [inUnitInterval_iff] at hunit
  obtain ⟨hcritical, hlow, hnominal, hoptimal⟩ :=
    (forall_mem_ordered fun value => InOrder 1 value value).mp hunit
  obtain ⟨hcritical', hlow', hnominal', hoptimal'⟩ :=
    (forall_mem_ordered fun value => fourPlaces value = value).mp hfixed
  refine shownIn_step .low hscore hcritical hcritical' rfl rfl (fun heq => ?_) ?_
  · rw [heq]
    exact if_pos h.critical_lt
  refine shownIn_step .nominal hscore hlow hlow' rfl rfl (fun heq => ?_) ?_
  · rw [heq]
    exact if_pos h.low_lt
  refine shownIn_step .optimal hscore hnominal hnominal' rfl rfl (fun heq => ?_) ?_
  · rw [heq]
    exact if_pos h.nominal_lt
  exact shownIn_step .peak hscore hoptimal hoptimal' rfl rfl (fun _ => rfl) (.inl rfl)

end Thresholds

/-! ## Reports -/

/-- All limits of a configuration have four places, as those of the standard one do. -/
structure ScoringConfig.FourPlaces (config : ScoringConfig) : Prop where
  thresholds : ∀ threshold ∈ config.thresholds.ordered, fourPlaces threshold.2 = threshold.2
  readinessThreshold : fourPlaces config.readinessThreshold = config.readinessThreshold
  minPassRate : fourPlaces config.minPassRate = config.minPassRate

theorem ScoringConfig.standard_fourPlaces : standard.FourPlaces := by
  constructor <;> decide +kernel

/-- What a report shows agrees with its band and its readiness. Its score is in its band, or is the
threshold above it; a release that is ready is shown to be; and one whose figures are shown to
exceed their limits is ready. -/
theorem aggregate_reported {components : List Component} {validations : List Validation}
    {config : ScoringConfig} {now : Instant} {r : Report}
    (h : aggregate components validations config now = .ok r) (hconfig : config.FourPlaces)
    (h64 : validations.length < 2 ^ 64) :
    (config.thresholds.classify r.totalScore = r.band ∨
      config.thresholds.upper? r.band = some r.totalScore ∧
        (config.thresholds.classify r.totalScore).rank = r.band.rank + 1) ∧
    (r.readyForFinalReview = true → config.readinessThreshold.le r.totalScore = true ∧
      config.minPassRate.le r.passRate = true) ∧
    (config.readinessThreshold.lt r.totalScore = true →
      config.minPassRate.lt r.passRate = true → r.readyForFinalReview = true) := by
  obtain ⟨hsound, hinputs, rfl⟩ := aggregate_eq_ok.mp h
  have hscore := hinputs.inOrder_finalScore h64
  have hrate := inOrder_passRate h64
  have hreadiness := inUnitInterval_iff.mp hsound.readinessThreshold
  have hleast := inUnitInterval_iff.mp hsound.minPassRate
  refine ⟨Thresholds.classify_fourPlaces hsound.thresholds hconfig.thresholds hscore, ?_, ?_⟩
  · intro hready
    obtain ⟨hreached, hpassed⟩ := Bool.and_eq_true_iff.mp hready
    exact ⟨le_fourPlaces hscore hreadiness hconfig.readinessThreshold hreached,
      le_fourPlaces hrate hleast hconfig.minPassRate hpassed⟩
  · intro hexceeds hpasses
    refine Bool.and_eq_true_iff.mpr ⟨?_, ?_⟩
    · exact le_of_lt_fourPlaces hscore hreadiness hconfig.readinessThreshold hexceeds
    · exact le_of_lt_fourPlaces hrate hleast hconfig.minPassRate hpasses

/-- Components whose mean is 0.7, but whose sum is rounded down on the way. -/
def tiedComponents : List Component :=
  [.uniform "core" 0.6, .uniform "edge" 0.7, .uniform "api" 0.8]

/-- A score just below 0.7 is shown as 0.7, in the band below and not ready. -/
theorem aggregate_reported_tie :
    let r := report .standard tiedComponents signOff (.ofClock 0)
    aggregate tiedComponents signOff .standard (.ofClock 0) = .ok r ∧
      ScoringConfig.standard.FourPlaces ∧ signOff.length < 2 ^ 64 ∧
      r.totalScore = 0.7 ∧ r.band = .nominal ∧
      (Thresholds.standard.classify r.totalScore = r.band ∨
        Thresholds.standard.upper? r.band = some r.totalScore ∧
          (Thresholds.standard.classify r.totalScore).rank = r.band.rank + 1) := by
  have haccepted : aggregate tiedComponents signOff .standard (.ofClock 0) =
      .ok (report .standard tiedComponents signOff (.ofClock 0)) :=
    aggregate_of_checks _ ScoringConfig.check_standard (by decide +kernel)
  have hsize : signOff.length < 2 ^ 64 := by decide
  refine ⟨haccepted, ScoringConfig.standard_fourPlaces, hsize, ?_, ?_, ?_⟩
  · decide +kernel
  · decide +kernel
  · exact (aggregate_reported haccepted ScoringConfig.standard_fourPlaces hsize).1

end ReleaseGate
