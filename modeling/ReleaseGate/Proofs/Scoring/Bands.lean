import Mathlib.Logic.ExistsUnique
import ReleaseGate.Proofs.Scoring.Reported

/-!
# The ranges of the bands

Each band has a range of scores, from the threshold below it, which is in it, to the threshold above
it, which is not. Thresholds that are accepted ascend, and then the ranges part all scores there
are, infinities included. How bands respond to scores and to thresholds does not depend on that:
thresholds out of order hide bands, but they hide them for all scores alike.

* `Thresholds.InRange`: the scores of a band.
* `Thresholds.inRange_iff`: a score is in the range of its own band, and in no other.
* `Thresholds.AtMost`, `Thresholds.rank_classify_antitone`: higher thresholds give lower bands.
* `Thresholds.classify_partitions`: all of this together.
-/

namespace ReleaseGate

namespace Thresholds

/-- The threshold that the scores of a band reach. -/
def lower? (t : Thresholds) : Band → Option Binary64
  | .critical => none
  | .low => some t.critical
  | .nominal => some t.low
  | .optimal => some t.nominal
  | .peak => some t.optimal

/-- A score is in the range of a band: it reaches the threshold below the band, if there is one, and
stays below the threshold above it, if there is one. -/
structure InRange (t : Thresholds) (band : Band) (score : Binary64) : Prop where
  reached : ∀ limit ∈ t.lower? band, limit.le score = true
  below : ∀ limit ∈ t.upper? band, score.lt limit = true

/-- Each threshold is at most its counterpart. -/
structure AtMost (t t' : Thresholds) : Prop where
  critical : t.critical.le t'.critical = true
  low : t.low.le t'.low = true
  nominal : t.nominal.le t'.nominal = true
  optimal : t.optimal.le t'.optimal = true

variable {t t' : Thresholds} {band : Band} {score : Binary64}

theorem inRange_def : t.InRange band score ↔
    (∀ limit ∈ t.lower? band, limit.le score = true) ∧
      ∀ limit ∈ t.upper? band, score.lt limit = true :=
  ⟨fun h => ⟨h.reached, h.below⟩, fun h => ⟨h.1, h.2⟩⟩

/-- A number reaches a threshold that is accepted, or is below it. -/
theorem Sound.reached_iff (ht : t.Sound) (hscore : score ≠ .nan) : ∀ threshold ∈ t.ordered,
    threshold.2.le score = true ↔ ¬score.lt threshold.2 = true := by
  intro threshold hmem
  have hunit := ht.inUnit threshold hmem
  refine Binary64.le_iff_not_lt (fun hnan => ?_) hscore
  rw [hnan] at hunit
  cases hunit

/-- A score is in the range of its own band, and in no other. -/
theorem inRange_iff (ht : t.Sound) (hscore : score ≠ .nan) :
    t.InRange band score ↔ t.classify score = band := by
  obtain ⟨hcritical, hlow, hnominal, hoptimal⟩ :=
    (forall_mem_ordered fun limit => limit.le score = true ↔ ¬score.lt limit = true).mp
      (ht.reached_iff hscore)
  -- A score below one threshold is below all of the following ones.
  have habove {lower upper : Binary64} (hless : lower.lt upper = true)
      (h : score.lt lower = true) : score.lt upper = true :=
    Binary64.lt_of_le_of_lt (Binary64.le_of_lt h) hless
  have hfirst := habove ht.critical_lt
  have hsecond := habove ht.low_lt
  have hthird := habove ht.nominal_lt
  rw [inRange_def, classify]
  cases band <;>
    simp only [lower?, upper?, Option.mem_def, reduceCtorEq, Option.some.injEq, forall_eq',
      false_imp_iff, implies_true, true_and, and_true, hcritical, hlow, hnominal, hoptimal] <;>
    grind

/-- A score is in no higher a band if thresholds are raised. -/
theorem rank_classify_antitone (h : t.AtMost t') (score : Binary64) :
    (t'.classify score).rank ≤ (t.classify score).rank :=
  rank_classify_le (fun hbelow => Binary64.lt_of_lt_of_le hbelow h.critical)
    (fun hbelow => Binary64.lt_of_lt_of_le hbelow h.low)
    (fun hbelow => Binary64.lt_of_lt_of_le hbelow h.nominal)
    (fun hbelow => Binary64.lt_of_lt_of_le hbelow h.optimal)

/-- If thresholds are accepted, each score that is a number is in the range of exactly one band, and
that is the band it is given. Whether they are or not, a larger score is in no lower a band, and a
score is in no higher a band if any of the thresholds are raised. -/
theorem classify_partitions (t : Thresholds) :
    (t.check = .ok () → ∀ score : Binary64, score ≠ .nan →
      (∃! band, t.InRange band score) ∧ t.InRange (t.classify score) score) ∧
    (∀ x y : Binary64, x.le y = true → (t.classify x).rank ≤ (t.classify y).rank) ∧
    ∀ t', t.AtMost t' → ∀ score, (t'.classify score).rank ≤ (t.classify score).rank := by
  refine ⟨fun haccepted score hscore => ?_, fun x y => t.rank_classify_mono,
    fun t' => rank_classify_antitone⟩
  have hsound := check_eq_ok.mp haccepted
  have hown : t.InRange (t.classify score) score := (inRange_iff hsound hscore).mpr rfl
  refine ⟨⟨t.classify score, hown, fun band h => ?_⟩, hown⟩
  exact ((inRange_iff hsound hscore).mp h).symm

/-- The standard thresholds with one of them raised past the next one. -/
def unordered : Thresholds := { standard with low := 0.8 }

/-- The ends of the number line are in the lowest and in the highest band. Thresholds out of order
hide a band, and a raised one takes a score from the optimal band to the low one. -/
theorem classify_partitions_infinity :
    standard.check = .ok () ∧
      (∃! band, standard.InRange band (.infinity true)) ∧
      standard.InRange .critical (.infinity true) ∧
      (∃! band, standard.InRange band (.infinity false)) ∧
      standard.InRange .peak (.infinity false) ∧
      unordered.check ≠ .ok () ∧
      (unordered.classify 0.75).rank ≤ (unordered.classify 0.8).rank ∧
      standard.AtMost unordered ∧
      (unordered.classify 0.75).rank ≤ (standard.classify 0.75).rank ∧
      unordered.classify 0.75 = .low ∧ standard.classify 0.75 = .optimal := by
  have haccepted : standard.check = .ok () := by decide +kernel
  have hraised : standard.AtMost unordered := by constructor <;> decide +kernel
  have hparts := (classify_partitions standard).1 haccepted
  have hlow : standard.classify (.infinity true) = .critical := by decide +kernel
  have hhigh : standard.classify (.infinity false) = .peak := by decide +kernel
  obtain ⟨hone, hown⟩ := hparts (.infinity true) (by decide)
  obtain ⟨hone', hown'⟩ := hparts (.infinity false) (by decide)
  rw [hlow] at hown
  rw [hhigh] at hown'
  refine ⟨haccepted, hone, hown, hone', hown', by decide +kernel, ?_, hraised, ?_, ?_, ?_⟩
  · exact (classify_partitions unordered).2.1 0.75 0.8 (by decide +kernel)
  · exact (classify_partitions standard).2.2 unordered hraised 0.75
  · decide +kernel
  · decide +kernel

end Thresholds

end ReleaseGate
