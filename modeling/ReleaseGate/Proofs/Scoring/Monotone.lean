import ReleaseGate.Proofs.Scoring.Range

/-!
# Better inputs, better reports

A report never gets worse if signals rise, if validations that failed pass, or if more validations
pass; and it never gets better if more validations fail. This holds of the rounded figures, because
each operation rounds in order.

* `Component.AtMost`, `Improved`: inputs that are at least as good.
* `Report.AtMost`: a report that is at least as good.
* `report_atMost`: better inputs have better reports.
* `aggregate_mono`: in both directions, for inputs that are accepted.
-/

namespace ReleaseGate

open Binary64 (InOrder)

/-! ## Inputs -/

/-- Components of one name, each signal of the first at most that of the second. -/
structure Component.AtMost (c d : Component) : Prop where
  name_eq : c.name = d.name
  coherence : c.coherence.le d.coherence = true
  alignment : c.alignment.le d.alignment = true
  velocity : c.velocity.le d.velocity = true
  stability : c.stability.le d.stability = true
  evidenceScore : c.evidenceScore.le d.evidenceScore = true

theorem Component.AtMost.signalsInOrder {c d : Component} (h : c.AtMost d) (hc : c.Sound)
    (hd : d.Sound) : SignalsInOrder c d := by
  have hc := hc.signalsInOrder
  have hd := hd.signalsInOrder
  constructor
  case coherence => exact hc.coherence.of_le hd.coherence h.coherence
  case alignment => exact hc.alignment.of_le hd.alignment h.alignment
  case velocity => exact hc.velocity.of_le hd.velocity h.velocity
  case stability => exact hc.stability.of_le hd.stability h.stability
  case evidenceScore => exact hc.evidenceScore.of_le hd.evidenceScore h.evidenceScore

/-- A validation of the same level that passed if the first one did. Who validated, when, with which
score and why does not matter. -/
structure Validation.AtMost (v w : Validation) : Prop where
  level_eq : w.level = v.level
  passed : v.passed = true → w.passed = true

/-- Validations some of which passed that failed before, followed by more that passed. -/
def Improved (vs ws : List Validation) : Prop :=
  ∃ raised extra, ws = raised ++ extra ∧ List.Forall₂ Validation.AtMost vs raised ∧
    ∀ v ∈ extra, v.passed = true

section Validations

variable {vs ws : List Validation}

theorem countP_passed_le (h : List.Forall₂ Validation.AtMost vs ws) :
    vs.countP (·.passed) ≤ ws.countP (·.passed) := by
  induction h with
  | nil => exact Nat.le_refl _
  | @cons v w vs ws hvw _ ih =>
    rw [List.countP_cons, List.countP_cons]
    by_cases hv : v.passed = true
    · rw [if_pos hv, if_pos (hvw.passed hv)]
      omega
    · rw [if_neg hv]
      omega

/-- Counts that are appended to have to be exact. -/
theorem Improved.inOrder_passRate (h : Improved vs ws) (h64 : ws.length < 2 ^ 64)
    (hexact : vs.length < ws.length → ws.length ≤ 2 ^ 53) :
    InOrder 1 (passRate vs) (passRate ws) := by
  obtain ⟨raised, extra, rfl, hraised, hextra⟩ := h
  have hlength := hraised.length_eq
  have hraise : raised.length < 2 ^ 64 → InOrder 1 (passRate vs) (passRate raised) := fun h64 =>
    inOrder_passRate_of_countP_le hlength h64 (countP_passed_le hraised)
  rw [hlength] at hexact
  by_cases hnone : extra = []
  · rw [hnone, List.append_nil] at h64 ⊢
    exact hraise h64
  · have hmore := List.length_pos_iff.mpr hnone
    rw [List.length_append] at h64 hexact
    refine (hraise (by omega)).trans (inOrder_passRate_append_passed ?_ hextra)
    rw [List.length_append]
    exact hexact (by omega)

/-- Every level that some validation passed is passed by some validation after. -/
def Covers (ws vs : List Validation) : Prop :=
  ∀ v ∈ vs, v.passed = true → ∃ w ∈ ws, w.passed = true ∧ w.level = v.level

theorem Improved.covers (h : Improved vs ws) : Covers ws vs := by
  obtain ⟨raised, extra, rfl, hraised, -⟩ := h
  intro v hv hpassed
  obtain ⟨i, hi, rfl⟩ := List.mem_iff_getElem.mp hv
  have hvw := hraised.get hi (hraised.length_eq ▸ hi)
  exact ⟨_, List.mem_append_left extra (List.getElem_mem _), hvw.passed hpassed, hvw.level_eq⟩

theorem Covers.missingLevels_sublist (h : Covers ws vs) (required : List Level) :
    (missingLevels ws required).Sublist (missingLevels vs required) := by
  refine List.monotone_filter_right required fun level hmissing => ?_
  simp only [Bool.not_eq_true', List.any_eq_false, Bool.and_eq_true, decide_eq_true_eq, not_and]
    at hmissing ⊢
  intro v hv hpassed hlevel
  obtain ⟨w, hw, hpassed', hlevel'⟩ := h v hv hpassed
  exact hmissing w hw hpassed' (hlevel'.trans hlevel)

end Validations

/-! ## Reports -/

/-- A report is not better than another one in any respect. -/
structure Report.AtMost (r r' : Report) : Prop where
  totalScore : r.totalScore.le r'.totalScore = true
  passRate : r.passRate.le r'.passRate = true
  multiplier : r.multiplier.le r'.multiplier = true
  frequencies : List.Forall₂ (fun s s' : ComponentScore =>
    s.name = s'.name ∧ s.frequency.le s'.frequency = true) r.components r'.components
  band : r.band.rank ≤ r'.band.rank
  ready : r.readyForFinalReview = true → r'.readyForFinalReview = true
  missing : r'.missing.Sublist r.missing

/-- Better inputs have better reports. -/
theorem report_atMost {config : ScoringConfig} {cs ds : List Component} {vs ws : List Validation}
    {now now' : Instant}
    (hcomponents : List.Forall₂ (fun c d => c.name = d.name ∧ Component.SignalsInOrder c d) cs ds)
    (hrate : InOrder 1 (passRate vs) (passRate ws)) (hcovers : Covers ws vs) :
    (report config cs vs now).AtMost (report config ds ws now') := by
  have hscore : InOrder 1 (finalScore cs vs) (finalScore ds ws) :=
    inOrder_finalScore (hcomponents.imp fun _ _ h => h.2) hrate
  constructor
  case totalScore => exact (inOrder_fourPlaces hscore).le
  case passRate => exact (inOrder_fourPlaces hrate).le
  case multiplier => exact (inOrder_fourPlaces (inOrder_multiplier hrate)).le
  case frequencies =>
    refine List.forall₂_map_left_iff.mpr (List.forall₂_map_right_iff.mpr ?_)
    exact hcomponents.imp fun _ _ h => ⟨h.1, (inOrder_fourPlaces h.2.frequency).le⟩
  case band => exact config.thresholds.rank_classify_mono hscore.le
  case ready =>
    intro hready
    obtain ⟨hreached, hpassed⟩ := Bool.and_eq_true_iff.mp hready
    exact Bool.and_eq_true_iff.mpr
      ⟨Binary64.le_trans hreached hscore.le, Binary64.le_trans hpassed hrate.le⟩
  case missing => exact hcovers.missingLevels_sublist config.requiredValidations

/-- Under one configuration, inputs that are at least as good have a report that is at least as
good, and failed validations that are appended do not make a report better.

Counts are those of a machine word. Where validations are appended that passed, counts are also
numbers of 53 bits, which no memory exceeds: beyond that, counts are rounded themselves, and a rate
can drop. -/
theorem aggregate_mono {cs : List Component} {vs : List Validation} {config : ScoringConfig}
    {now : Instant} {r : Report} (h : aggregate cs vs config now = .ok r) :
    (∀ ds ws now' r', aggregate ds ws config now' = .ok r' →
      List.Forall₂ Component.AtMost cs ds → Improved vs ws → ws.length < 2 ^ 64 →
      (vs.length < ws.length → ws.length ≤ 2 ^ 53) → r.AtMost r') ∧
    (∀ extra now' r', aggregate cs (vs ++ extra) config now' = .ok r' →
      (∀ v ∈ extra, v.passed = false) → (vs ++ extra).length < 2 ^ 64 → r'.AtMost r) := by
  obtain ⟨-, hinputs, rfl⟩ := aggregate_eq_ok.mp h
  constructor
  · intro ds ws now' r' h' hcomponents himproved h64 hexact
    obtain ⟨-, hinputs', rfl⟩ := aggregate_eq_ok.mp h'
    refine report_atMost ?_ (himproved.inOrder_passRate h64 hexact) himproved.covers
    refine List.forall₂_iff_get.mpr ⟨hcomponents.length_eq, fun i hi hi' => ?_⟩
    have hcd := hcomponents.get hi hi'
    exact ⟨hcd.name_eq, hcd.signalsInOrder (hinputs.sound_components _ (List.getElem_mem hi))
      (hinputs'.sound_components _ (List.getElem_mem hi'))⟩
  · intro extra now' r' h' hfailed h64
    obtain ⟨-, -, rfl⟩ := aggregate_eq_ok.mp h'
    refine report_atMost ?_ (inOrder_passRate_append_failed h64 hfailed) ?_
    · exact List.forall₂_same.mpr fun c hc => ⟨rfl, (hinputs.sound_components c hc).signalsInOrder⟩
    · intro v hv hpassed
      rcases List.mem_append.mp hv with hmem | hmem
      · exact ⟨v, hmem, hpassed, rfl⟩
      · rw [hfailed v hmem] at hpassed
        cases hpassed

/-- A self-assessment and what became of it. -/
def assessment (passed : Bool) : Validation :=
  ⟨.selfAssessment, "owner", .ofClock 0, passed, 0.5, ""⟩

/-- A component that is better, an assessment that passed since and a final validation
on top of it; and on the other side one more assessment that failed. -/
theorem aggregate_mono_signOff :
    (report .standard [.uniform "core" 0.7] [assessment false] (.ofClock 0)).AtMost
        (report .standard [.uniform "core" 0.8] (assessment true :: signOff) (.ofClock 1)) ∧
      (report .standard [.uniform "core" 0.7] [assessment false, assessment false]
          (.ofClock 1)).AtMost
        (report .standard [.uniform "core" 0.7] [assessment false] (.ofClock 0)) := by
  have haccepted : aggregate [.uniform "core" 0.7] [assessment false] .standard (.ofClock 0) =
      .ok (report .standard [.uniform "core" 0.7] [assessment false] (.ofClock 0)) :=
    aggregate_of_checks _ ScoringConfig.check_standard (by decide +kernel)
  obtain ⟨hbetter, hworse⟩ := aggregate_mono haccepted
  constructor
  · refine hbetter [.uniform "core" 0.8] (assessment true :: signOff) (.ofClock 1) _ ?_
      (.cons ?_ .nil) ?_ ?_ ?_
    · exact aggregate_of_checks _ ScoringConfig.check_standard (by decide +kernel)
    · constructor <;> decide +kernel
    · exact ⟨[assessment true], signOff, rfl, .cons ⟨rfl, fun _ => rfl⟩ .nil, by decide⟩
    · decide
    · decide
  · refine hworse [assessment false] (.ofClock 1) _ ?_ (by decide) (by decide)
    exact aggregate_of_checks _ ScoringConfig.check_standard (by decide +kernel)

end ReleaseGate
