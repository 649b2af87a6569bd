import ReleaseGate.Proofs.Arrangement
import ReleaseGate.Proofs.Scoring.Monotone
import ReleaseGate.Proofs.Scoring.Reported
import ReleaseGate.Proofs.Scoring.Spread

/-!
# Inputs in another order

Components and validations may come in any order: they are accepted in each, and reported in the
order they came in. The pass rate and what it does to the score are shares of counts, and so is what
is missing. The score itself is a sum that is rounded from left to right, so its last digits depend
on the order, and with them the band and the readiness of a score that is next to a limit.

* `sumOf_eq_of_length_le_two`, `isNegative_finalScore`: what a sum keeps in any order.
* `Report.Rearranged`, `Report.SameVerdict`: what all orders share, and what they may not.
* `aggregate_order_counts`: two orders that do not share it.
* `aggregate_rearranged`: how near to a limit a score has to be for that.
-/

namespace ReleaseGate

open Binary64 (InOrder value roundoff)

/-! ## Sums in two orders -/

section Sums

variable {xs ys : List Binary64}

/-- A sum is minus zero if all its summands are. -/
theorem isNegative_foldl (hxs : ∀ x ∈ xs, InOrder 1 x x) {k : Nat} {a : Binary64}
    (ha : InOrder (min k (2 ^ 53)) a a) :
    (xs.foldl (· + ·) a).isNegative = (a.isNegative && xs.all Binary64.isNegative) := by
  induction xs generalizing k a with
  | nil => exact (Bool.and_true _).symm
  | cons x xs ih =>
    have hx := hxs x List.mem_cons_self
    have hnext : InOrder (min (k + 1) (2 ^ 53)) (a + x) (a + x) :=
      inOrder_foldl (.cons hx .nil) ha
    rw [List.foldl_cons, ih (fun y hy => hxs y (List.mem_cons_of_mem x hy)) hnext,
      ha.isNegative_add hx (by omega) (by decide), List.all_cons, Bool.and_assoc]

theorem isNegative_meanOf (hxs : ∀ x ∈ xs, InOrder 1 x x) (h : ys.Perm xs) :
    (meanOf ys).isNegative = (meanOf xs).isNegative := by
  by_cases hnil : xs = []
  · subst hnil
    rw [List.perm_nil.mp h]
  · have hnil' : ys ≠ [] := fun hys => hnil (List.nil_perm.mp (hys ▸ h))
    have hsum {zs : List Binary64} (hzs : ∀ z ∈ zs, InOrder 1 z z) (hne : zs ≠ []) :
        (meanOf zs).isNegative = zs.all Binary64.isNegative := by
      have hzero : InOrder (min 0 (2 ^ 53)) Binary64.negativeZero Binary64.negativeZero :=
        Binary64.InOrder.zero _ true
      have htotal := inOrder_foldl (List.forall₂_same.mpr hzs) hzero
      rw [meanOf, if_neg (by simpa using hne)]
      refine (htotal.isNegative_div_ofNat (by omega) (List.length_pos_iff.mpr hne)).trans ?_
      rw [isNegative_foldl hzs hzero]
      exact Bool.true_and _
    rw [hsum hxs hnil, hsum (fun y hy => hxs y (h.mem_iff.mp hy)) hnil', h.all_eq]

/-- Up to two numbers have the same sum in any order. -/
theorem sumOf_eq_of_length_le_two (hxs : ∀ x ∈ xs, InOrder 1 x x) (h : ys.Perm xs)
    (hlength : xs.length ≤ 2) : sumOf ys = sumOf xs := by
  match xs with
  | [] => rw [List.perm_nil.mp h]
  | [x] => rw [List.perm_singleton.mp h]
  | [x, y] =>
    have hx := hxs x List.mem_cons_self
    have hy := hxs y (List.mem_cons_of_mem x List.mem_cons_self)
    have hswap : sumOf [y, x] = sumOf [x, y] := by
      show Binary64.negativeZero + y + x = Binary64.negativeZero + x + y
      rw [hx.negativeZero_add (by decide), hy.negativeZero_add (by decide)]
      exact hy.add_comm hx (by decide) (by decide)
    rcases List.perm_pair.mp h with rfl | rfl
    · rfl
    · exact hswap

end Sums

section Scores

variable {cs ds : List Component} {vs ws : List Validation}

theorem missingLevels_perm (h : ws.Perm vs) (required : List Level) :
    missingLevels ws required = missingLevels vs required := by
  unfold missingLevels
  simp only [h.any_eq]

/-- A score is minus zero in all orders or in none. -/
theorem SoundInputs.isNegative_finalScore (h : SoundInputs cs vs) (hds : ds.Perm cs)
    (hws : ws.Perm vs) (h64 : vs.length < 2 ^ 64) :
    (finalScore ds ws).isNegative = (finalScore cs vs).isNegative := by
  have hfactor := inOrder_multiplier (inOrder_passRate h64)
  have hmean := inOrder_meanOf (List.forall₂_same.mpr h.frequencies)
  have hmean' := inOrder_meanOf (List.forall₂_same.mpr (h.perm hds hws).frequencies)
  rw [finalScore, finalScore, passRate_perm hws,
    hmean.isNegative_mul hfactor (by decide) (by decide),
    hmean'.isNegative_mul hfactor (by decide) (by decide),
    isNegative_meanOf h.frequencies (hds.map Component.frequency)]

/-- The order of components matters to a score only through their sum. -/
theorem finalScore_eq_of_sumOf_eq (hds : ds.Perm cs) (hws : ws.Perm vs)
    (h : sumOf (ds.map Component.frequency) = sumOf (cs.map Component.frequency)) :
    finalScore ds ws = finalScore cs vs := by
  have hempty : (ds.map Component.frequency).isEmpty = (cs.map Component.frequency).isEmpty := by
    rw [Bool.eq_iff_iff, List.isEmpty_iff_length_eq_zero, List.isEmpty_iff_length_eq_zero,
      List.length_map, List.length_map, hds.length_eq]
  rw [finalScore, finalScore, meanOf, meanOf, hempty, h, List.length_map, List.length_map,
    hds.length_eq, passRate_perm hws]

end Scores

/-! ## Reports -/

/-- What a report of rearranged inputs shares with the report of the inputs, whatever the orders. -/
structure Report.Rearranged (order order' : List Nat) (r r' : Report) : Prop where
  version : r'.version = r.version
  components : r'.components = arrange order r.components
  validations : r'.validations = arrange order' r.validations
  passRate : r'.passRate = r.passRate
  multiplier : r'.multiplier = r.multiplier
  missing : r'.missing = r.missing

/-- What two reports make of their score. -/
structure Report.SameVerdict (r r' : Report) : Prop where
  totalScore : r'.totalScore = r.totalScore
  band : r'.band = r.band
  recommendation : r'.recommendation = r.recommendation
  ready : r'.readyForFinalReview = r.readyForFinalReview

/-- What two reports make of scores that are at most the spread of `n` components apart. They are
shown at most one place apart, and each limit decides alike about both, unless it is within the
spread of the score. -/
structure Report.CloseVerdict (config : ScoringConfig) (n : Nat) (score : Binary64)
    (r r' : Report) : Prop where
  shown : |r'.totalScore.value - r.totalScore.value| ≤ 1 / 10000 + (spread n + 8 * roundoff)
  totalScore : (∀ k : Nat, spread n + 2 * roundoff < |score.value - (2 * k + 1) / 20000|) →
    r'.totalScore = r.totalScore
  band : (∀ threshold ∈ config.thresholds.ordered,
    spread n < |score.value - threshold.2.value|) →
    r'.band = r.band ∧ r'.recommendation = r.recommendation
  ready : spread n < |score.value - config.readinessThreshold.value| →
    r'.readyForFinalReview = r.readyForFinalReview

theorem report_closeVerdict {cs ds : List Component} {vs ws : List Validation}
    {config : ScoringConfig} (hconfig : config.Sound) (h : SoundInputs cs vs) (hds : ds.Perm cs)
    (hws : ws.Perm vs) (h64 : vs.length < 2 ^ 64) (now now' : Instant) :
    (report config cs vs now).CloseVerdict config cs.length (finalScore cs vs)
      (report config ds ws now') := by
  have hnear := h.abs_finalScore_sub_le hds hws h64
  have hscore := h.inOrder_finalScore h64
  have hscore' := (h.perm hds hws).inOrder_finalScore (hws.length_eq ▸ h64)
  constructor
  case shown => exact abs_fourPlaces_sub_le hscore hscore' hnear
  case totalScore =>
    exact fourPlaces_congr_of_far hscore hscore' (h.isNegative_finalScore hds hws h64) hnear
  case band =>
    intro hfar
    have hband := Thresholds.classify_congr_of_far hconfig.thresholds hscore hscore' hnear hfar
    exact ⟨hband, congrArg Band.recommendation hband⟩
  case ready =>
    intro hfar
    have hlimit := inUnitInterval_iff.mp hconfig.readinessThreshold
    simp only [report, le_congr_of_far hscore hscore' hlimit hnear hfar, passRate_perm hws]

/-- Inputs that are accepted are accepted in any order, and their report is the same up to what it
makes of the score. It makes the same of it if the frequencies have the same sum in both orders, as
they do if only validations change their places or if there are at most two components. And in any
case the scores are at most the spread apart. -/
theorem aggregate_rearranged {components : List Component} {validations : List Validation}
    {config : ScoringConfig} {now : Instant} {r : Report} {order order' : List Nat}
    (h : aggregate components validations config now = .ok r)
    (horder : order.Perm (List.range components.length))
    (horder' : order'.Perm (List.range validations.length)) (h64 : validations.length < 2 ^ 64)
    (now' : Instant) :
    ∃ r', aggregate (arrange order components) (arrange order' validations) config now' = .ok r' ∧
      r.Rearranged order order' r' ∧
      (sumOf ((arrange order components).map Component.frequency) =
        sumOf (components.map Component.frequency) → r.SameVerdict r') ∧
      (components.length ≤ 2 → r.SameVerdict r') ∧
      |(finalScore (arrange order components) (arrange order' validations)).value -
        (finalScore components validations).value| ≤ spread components.length ∧
      r.CloseVerdict config components.length (finalScore components validations) r' := by
  obtain ⟨hconfig, hsound, rfl⟩ := aggregate_eq_ok.mp h
  have hcs := arrange_perm horder
  have hvs := arrange_perm horder'
  have hrate := passRate_perm hvs
  have hsound' := hsound.perm hcs hvs
  have hsame (hscore : finalScore (arrange order components) (arrange order' validations) =
      finalScore components validations) :
      (report config components validations now).SameVerdict
        (report config (arrange order components) (arrange order' validations) now') := by
    constructor <;> simp only [report, hscore, hrate]
  refine ⟨_, aggregate_eq_ok.mpr ⟨hconfig, hsound', rfl⟩, ?_, ?_, ?_, ?_, ?_⟩
  · constructor
    case version => rfl
    case components => exact (arrange_map _ _ _).symm
    case validations => rfl
    case passRate => exact congrArg fourPlaces hrate
    case multiplier => exact congrArg (fun rate => fourPlaces (multiplier rate)) hrate
    case missing => exact missingLevels_perm hvs _
  · exact fun hsum => hsame (finalScore_eq_of_sumOf_eq hcs hvs hsum)
  · intro hlength
    refine hsame (finalScore_eq_of_sumOf_eq hcs hvs ?_)
    refine sumOf_eq_of_length_le_two hsound.frequencies (hcs.map Component.frequency) ?_
    rwa [List.length_map]
  · exact hsound.abs_finalScore_sub_le hcs hvs h64
  · exact report_closeVerdict hconfig hsound hcs hvs h64 now now'

/-- Components whose mean is next to a midpoint of four places. -/
def splitComponents : List Component :=
  [.uniform "core" 0.8, .uniform "edge" 0.6, .uniform "api" 0.76795]

theorem report_recommendation (config : ScoringConfig) (components : List Component)
    (validations : List Validation) (now : Instant) :
    (report config components validations now).recommendation =
      (report config components validations now).band.recommendation := rfl

/-- Two orders of one input need not share a verdict. Three components are in the nominal band and
not ready in one order, and in the optimal band and ready in another one; and the scores of two
orders may even be shown differently. -/
theorem aggregate_order_counts :
    (∃ r r', aggregate tiedComponents signOff .standard (.ofClock 0) = .ok r ∧
      aggregate (arrange [1, 2, 0] tiedComponents) signOff .standard (.ofClock 0) = .ok r' ∧
      [1, 2, 0].Perm (List.range tiedComponents.length) ∧
      r.band = .nominal ∧ r'.band = .optimal ∧ r'.recommendation ≠ r.recommendation ∧
      r.readyForFinalReview = false ∧ r'.readyForFinalReview = true) ∧
    (∃ r r', aggregate splitComponents signOff .standard (.ofClock 0) = .ok r ∧
      aggregate (arrange [0, 2, 1] splitComponents) signOff .standard (.ofClock 0) = .ok r' ∧
      [0, 2, 1].Perm (List.range splitComponents.length) ∧
      r.totalScore = 0.7226 ∧ r'.totalScore = 0.7227) := by
  constructor
  · refine ⟨report .standard tiedComponents signOff (.ofClock 0),
      report .standard (arrange [1, 2, 0] tiedComponents) signOff (.ofClock 0),
      aggregate_of_checks _ ScoringConfig.check_standard (by decide +kernel),
      aggregate_of_checks _ ScoringConfig.check_standard (by decide +kernel), by decide, ?_⟩
    have hband : (report .standard tiedComponents signOff (.ofClock 0)).band = .nominal := by
      decide +kernel
    have hband' : (report .standard (arrange [1, 2, 0] tiedComponents) signOff
        (.ofClock 0)).band = .optimal := by decide +kernel
    refine ⟨hband, hband', ?_, by decide +kernel, by decide +kernel⟩
    rw [report_recommendation, report_recommendation, hband, hband']
    decide
  · refine ⟨report .standard splitComponents signOff (.ofClock 0),
      report .standard (arrange [0, 2, 1] splitComponents) signOff (.ofClock 0),
      aggregate_of_checks _ ScoringConfig.check_standard (by decide +kernel),
      aggregate_of_checks _ ScoringConfig.check_standard (by decide +kernel), by decide, ?_, ?_⟩
    · decide +kernel
    · decide +kernel

/-- Two components in another order, each with its validation, have the same report. -/
theorem aggregate_rearranged_pair :
    let components : List Component := [.uniform "core" 0.6, .uniform "edge" 0.7]
    let validations := [assessment false, assessment true]
    ∃ r', aggregate (arrange [1, 0] components) (arrange [1, 0] validations) .standard
        (.ofClock 1) = .ok r' ∧
      (report .standard components validations (.ofClock 0)).Rearranged [1, 0] [1, 0] r' ∧
      (report .standard components validations (.ofClock 0)).SameVerdict r' := by
  intro components validations
  have haccepted : aggregate components validations .standard (.ofClock 0) =
      .ok (report .standard components validations (.ofClock 0)) :=
    aggregate_of_checks _ ScoringConfig.check_standard (by decide +kernel)
  have hcomponents : [1, 0].Perm (List.range components.length) := by decide
  have hvalidations : [1, 0].Perm (List.range validations.length) := by decide
  obtain ⟨r', haccepted', hrearranged, -, hpair, -⟩ :=
    aggregate_rearranged haccepted hcomponents hvalidations (by decide) (.ofClock 1)
  exact ⟨r', haccepted', hrearranged, hpair (by decide)⟩

end ReleaseGate
