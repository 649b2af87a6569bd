import Mathlib.Data.List.Forall2
import ReleaseGate.Proofs.Scoring.Acceptance

/-!
# Figures in order

Every figure of a report is built from numbers in the unit interval by operations that keep their
order. So it rises with them and stays in the unit interval, however its operations round.

* `SignalsInOrder.frequency`, `inOrder_meanOf`: frequencies and their mean.
* `inOrder_share`, `inOrder_passRate`: shares of counts.
* `inOrder_multiplier`, `inOrder_finalScore`, `inOrder_fourPlaces`: what is made of them.
* `Thresholds.rank_classify_mono`: a score that is not less is in a band that is not lower.
-/

namespace ReleaseGate

open Binary64 (InOrder wholeRank)

/-! ## Frequencies -/

/-- All signals of a component are at most those of another, within the unit interval. -/
structure Component.SignalsInOrder (c d : Component) : Prop where
  coherence : InOrder 1 c.coherence d.coherence
  alignment : InOrder 1 c.alignment d.alignment
  velocity : InOrder 1 c.velocity d.velocity
  stability : InOrder 1 c.stability d.stability
  evidenceScore : InOrder 1 c.evidenceScore d.evidenceScore

namespace Component

variable {c d : Component}

/-- Five weighted signals add up to five at most, if no more is known of the weights than that each
is at most one. -/
private theorem SignalsInOrder.frequency_five (h : SignalsInOrder c d) :
    InOrder (1 + 1 + 1 + 1 + 1) c.frequency d.frequency := by
  have hweight : ∀ w : Binary64, inUnitInterval w = true → InOrder 1 w w := fun w hw =>
    inUnitInterval_iff.mp hw
  have hcoherence := h.coherence.weigh (hweight weightCoherence (by decide +kernel)) (by decide)
  have halignment := h.alignment.weigh (hweight weightAlignment (by decide +kernel)) (by decide)
  have hvelocity := h.velocity.weigh (hweight weightVelocity (by decide +kernel)) (by decide)
  have hstability := h.stability.weigh (hweight weightStability (by decide +kernel)) (by decide)
  have hevidence := h.evidenceScore.weigh (hweight weightEvidence (by decide +kernel)) (by decide)
  unfold frequency
  exact (((hcoherence.add halignment (by decide) (by decide)).add hvelocity (by decide)
    (by decide)).add hstability (by decide) (by decide)).add hevidence (by decide) (by decide)

/-- The frequency rises with the signals. It is at most one, because it is exactly one for signals
that are all one: the weights and their sums are rounded, but not so that this shows. -/
theorem SignalsInOrder.frequency (h : SignalsInOrder c d) :
    InOrder 1 c.frequency d.frequency := by
  have hones : (uniform "" 1).frequency = 1 := by decide +kernel
  have htop : SignalsInOrder d (uniform "" 1) :=
    ⟨h.coherence.one_right, h.alignment.one_right, h.velocity.one_right, h.stability.one_right,
      h.evidenceScore.one_right⟩
  have hbound := htop.frequency_five
  rw [hones] at hbound
  exact h.frequency_five.below (hbound.below InOrder.nat_one)

theorem Sound.signalsInOrder (h : c.Sound) : SignalsInOrder c c := by
  have hunit := h.inUnit
  simp only [dimensions, List.forall_mem_cons, inUnitInterval_iff] at hunit
  obtain ⟨hcoherence, halignment, hvelocity, hstability, hevidence, -⟩ := hunit
  exact ⟨hcoherence, halignment, hvelocity, hstability, hevidence⟩

end Component

/-! ## Means -/

/-- A running sum of numbers up to one never passes their count, nor `2^53`: from there on, one more
is rounded off. -/
theorem inOrder_foldl {xs ys : List Binary64} (h : List.Forall₂ (InOrder 1) xs ys) {k : Nat}
    {a b : Binary64} (hab : InOrder (min k (2 ^ 53)) a b) :
    InOrder (min (k + xs.length) (2 ^ 53)) (xs.foldl (· + ·) a) (ys.foldl (· + ·) b) := by
  induction h generalizing k a b with
  | nil => exact hab
  | @cons x y xs ys hxy _ ih =>
    have hsum := hab.add hxy (Nat.min_le_right _ _) (by decide)
    have hnext : InOrder (min (k + 1) (2 ^ 53)) (a + x) (b + y) := by
      by_cases hk : k + 1 ≤ 2 ^ 53
      · rw [Nat.min_eq_left hk]
        rwa [Nat.min_eq_left (by omega)] at hsum
      · rw [Nat.min_eq_right (by omega)]
        rw [Nat.min_eq_right (by omega)] at hsum
        exact hsum.largest
    have hrest := ih hnext
    rwa [Nat.add_assoc, Nat.add_comm 1] at hrest

/-- Means rise with what they are means of. -/
theorem inOrder_meanOf {xs ys : List Binary64} (h : List.Forall₂ (InOrder 1) xs ys) :
    InOrder 1 (meanOf xs) (meanOf ys) := by
  have hlength := h.length_eq
  unfold meanOf
  cases h with
  | nil => exact InOrder.nat_zero 1
  | @cons x y xs ys hxy hrest =>
    have hsum := inOrder_foldl (List.Forall₂.cons hxy hrest) (k := 0)
      (Binary64.InOrder.zero _ true)
    rw [Nat.zero_add] at hsum
    rw [← hlength]
    exact hsum.div_ofNat ((Nat.min_le_right _ _).trans_lt (by decide)) (Nat.min_le_left _ _)
      (Nat.succ_pos _)

/-! ## Shares -/

/-- Shares are in order as their counts are, each count rounded by itself. -/
theorem inOrder_share {p n q m : Nat} (hn : 0 < n) (hpn : p ≤ n) (hm : 0 < m) (hqm : q ≤ m)
    (hn64 : n < 2 ^ 64) (hm64 : m < 2 ^ 64)
    (h : Binary64.quanta (wholeRank p) * Binary64.quanta (wholeRank m) ≤
      Binary64.quanta (wholeRank q) * Binary64.quanta (wholeRank n)) :
    InOrder 1 (.ofNat p / .ofNat n) (.ofNat q / .ofNat m) := by
  have hshare := (Binary64.InOrder.ofNat (Nat.le_refl p)).div_ofNat (hpn.trans_lt hn64) hpn hn
  have hshare' := (Binary64.InOrder.ofNat (Nat.le_refl q)).div_ofNat (hqm.trans_lt hm64) hqm hm
  refine hshare.of_le hshare' ?_
  have hp := (Binary64.at_ofNat p).div (Binary64.at_ofNat n)
    (Binary64.wholeRank_lt_topRank (hpn.trans_lt hn64)) (Binary64.wholeRank_pos hn)
    (Binary64.wholeRank_lt_topRank hn64)
  have hq := (Binary64.at_ofNat q).div (Binary64.at_ofNat m)
    (Binary64.wholeRank_lt_topRank (hqm.trans_lt hm64)) (Binary64.wholeRank_pos hm)
    (Binary64.wholeRank_lt_topRank hm64)
  rw [Binary64.le_iff hp hq]
  refine Binary64.rankOf_mono (Binary64.quanta_pos (Binary64.wholeRank_pos hn))
    (Binary64.quanta_pos (Binary64.wholeRank_pos hm)) ?_
  calc Binary64.quanta (wholeRank p) * Binary64.unit * Binary64.quanta (wholeRank m)
      = Binary64.unit * (Binary64.quanta (wholeRank p) * Binary64.quanta (wholeRank m)) := by ring
    _ ≤ Binary64.unit * (Binary64.quanta (wholeRank q) * Binary64.quanta (wholeRank n)) :=
      Nat.mul_le_mul_left _ h
    _ = Binary64.quanta (wholeRank q) * Binary64.unit * Binary64.quanta (wholeRank n) := by ring

section PassRate

variable {vs ws extra : List Validation}

theorem passRate_nil : passRate [] = 0 := rfl

theorem passRate_of_ne_nil (h : vs ≠ []) :
    passRate vs = .ofNat (vs.countP (·.passed)) / .ofNat vs.length := by
  rw [passRate, if_neg (by simpa using h)]

theorem passRate_perm (h : ws.Perm vs) : passRate ws = passRate vs := by
  by_cases hnil : vs = []
  · subst hnil
    rw [List.perm_nil.mp h]
  · have hnil' : ws ≠ [] := fun hws => hnil (List.nil_perm.mp (hws ▸ h))
    rw [passRate_of_ne_nil hnil, passRate_of_ne_nil hnil', h.countP_eq, h.length_eq]

/-- Of as many validations, more that passed make a rate that is not lower. -/
theorem inOrder_passRate_of_countP_le (hlength : vs.length = ws.length) (h64 : ws.length < 2 ^ 64)
    (hcount : vs.countP (·.passed) ≤ ws.countP (·.passed)) :
    InOrder 1 (passRate vs) (passRate ws) := by
  by_cases hvs : vs = []
  · subst hvs
    obtain rfl := List.eq_nil_of_length_eq_zero hlength.symm
    exact InOrder.nat_zero 1
  · have hws : ws ≠ [] := by
      rintro rfl
      exact hvs (List.eq_nil_of_length_eq_zero hlength)
    rw [passRate_of_ne_nil hvs, passRate_of_ne_nil hws, hlength]
    refine inOrder_share (List.length_pos_iff.mpr hws) ?_ (List.length_pos_iff.mpr hws)
      List.countP_le_length h64 h64 (Nat.mul_le_mul_right _ ?_)
    · exact hlength ▸ List.countP_le_length
    · exact Binary64.quanta_strictMono.monotone (Binary64.wholeRank_mono hcount)

theorem inOrder_passRate (h64 : vs.length < 2 ^ 64) : InOrder 1 (passRate vs) (passRate vs) :=
  inOrder_passRate_of_countP_le rfl h64 (Nat.le_refl _)

/-- More validations that passed make a rate that is not lower, as long as counts are exact. -/
theorem inOrder_passRate_append_passed (hlength : (vs ++ extra).length ≤ 2 ^ 53)
    (hpassed : ∀ v ∈ extra, v.passed = true) :
    InOrder 1 (passRate vs) (passRate (vs ++ extra)) := by
  have h64 : (vs ++ extra).length < 2 ^ 64 := hlength.trans_lt (by decide)
  by_cases hvs : vs = []
  · subst hvs
    exact (inOrder_passRate h64).zero_left
  · have hall : vs ++ extra ≠ [] := by simp [hvs]
    have hcount : (vs ++ extra).countP (·.passed) = vs.countP (·.passed) + extra.length := by
      rw [List.countP_append, List.countP_eq_length.mpr hpassed]
    have hle : vs.countP (·.passed) ≤ vs.length := List.countP_le_length
    rw [List.length_append] at hlength h64
    rw [passRate_of_ne_nil hvs, passRate_of_ne_nil hall, hcount, List.length_append]
    have hpos := List.length_pos_iff.mpr hvs
    refine inOrder_share hpos hle (by omega) (by omega) (by omega) h64 ?_
    rw [Binary64.quanta_wholeRank (by omega), Binary64.quanta_wholeRank (by omega),
      Binary64.quanta_wholeRank (by omega), Binary64.quanta_wholeRank (by omega)]
    generalize vs.countP (·.passed) = p at hle
    generalize vs.length = n at hle
    generalize extra.length = k
    calc p * Binary64.unit * ((n + k) * Binary64.unit)
        = (p * n + p * k) * (Binary64.unit * Binary64.unit) := by ring
      _ ≤ (p * n + n * k) * (Binary64.unit * Binary64.unit) :=
        Nat.mul_le_mul_right _ (Nat.add_le_add_left (Nat.mul_le_mul_right k hle) _)
      _ = (p + k) * Binary64.unit * (n * Binary64.unit) := by ring

-- Past `2^53` a count can lose the validation that was added to it.
example : (Binary64.ofNat (2 ^ 53 + 1) / Binary64.ofNat (2 ^ 53 + 3)).lt
    (Binary64.ofNat (2 ^ 53) / Binary64.ofNat (2 ^ 53 + 2)) = true := by decide +kernel

/-- More validations that failed make a rate that is not higher. -/
theorem inOrder_passRate_append_failed (h64 : (vs ++ extra).length < 2 ^ 64)
    (hfailed : ∀ v ∈ extra, v.passed = false) :
    InOrder 1 (passRate (vs ++ extra)) (passRate vs) := by
  have hnone : extra.countP (·.passed) = 0 := List.countP_eq_zero.mpr fun v hv => by
    rw [hfailed v hv]
    exact Bool.false_ne_true
  have hle : vs.countP (·.passed) ≤ vs.length := List.countP_le_length
  by_cases hall : vs ++ extra = []
  · obtain ⟨rfl, rfl⟩ := List.append_eq_nil_iff.mp hall
    exact InOrder.nat_zero 1
  · by_cases hvs : vs = []
    · -- The rate of none is zero, which is a share as well.
      subst hvs
      have hzero : (.ofNat 0 / .ofNat 1 : Binary64) = 0 := by decide +kernel
      rw [passRate_of_ne_nil hall, List.nil_append, hnone, passRate_nil, ← hzero]
      refine inOrder_share (List.length_pos_iff.mpr hall) (Nat.zero_le _) Nat.one_pos
        (Nat.zero_le 1) h64 (by decide) (Nat.mul_le_mul_left _ ?_)
      exact Binary64.quanta_strictMono.monotone
        (Binary64.wholeRank_mono (List.length_pos_iff.mpr hall))
    · rw [List.length_append] at h64
      rw [passRate_of_ne_nil hvs, passRate_of_ne_nil hall, List.countP_append, hnone,
        Nat.add_zero, List.length_append]
      have hpos := List.length_pos_iff.mpr hvs
      refine inOrder_share (by omega) (by omega) hpos hle h64 (by omega) ?_
      refine Nat.mul_le_mul_left _ ?_
      exact Binary64.quanta_strictMono.monotone (Binary64.wholeRank_mono (by omega))

end PassRate

/-! ## Scores -/

section Scores

variable {x y : Binary64}

/-- The multiplier rises with the rate. It is at most one, because it is exactly one for a perfect
rate. -/
theorem inOrder_multiplier (h : InOrder 1 x y) : InOrder 1 (multiplier x) (multiplier y) := by
  have hfloor : InOrder 1 multiplierFloor multiplierFloor :=
    inUnitInterval_iff.mp (by decide +kernel)
  have hspan : InOrder 1 multiplierSpan multiplierSpan :=
    inUnitInterval_iff.mp (by decide +kernel)
  have hsum : ∀ {x y}, InOrder 1 x y → InOrder (1 + 1) (multiplier x) (multiplier y) := fun h =>
    hfloor.add (hspan.weigh h (by decide)) (by decide) (by decide)
  have hperfect : multiplier 1 = 1 := by decide +kernel
  have hbound := hsum h.one_right
  rw [hperfect] at hbound
  exact (hsum h).below (hbound.below InOrder.nat_one)

/-- The multiplier is never below that of no validation that passed. -/
theorem multiplierFloor_le (h : InOrder 1 x x) : multiplierFloor.le (multiplier x) = true := by
  have hnone : multiplier 0 = multiplierFloor := by decide +kernel
  rw [← hnone]
  exact (inOrder_multiplier h.zero_left).le

/-- Rounding to four places keeps the order, and the ends of the unit interval. -/
theorem inOrder_fourPlaces (h : InOrder 1 x y) : InOrder 1 (fourPlaces x) (fourPlaces y) := by
  have hscaled : InOrder 10000 (x * 10000) (y * 10000) := by
    have hproduct := h.mul (Binary64.InOrder.ofNat (Nat.le_refl 10000)) (by decide) (by decide)
    rwa [Nat.one_mul] at hproduct
  exact (hscaled.roundWhole (by decide)).div_ofNat (by decide) (Nat.le_refl _) (by decide)

/-- The final score rises with the components' signals and with the pass rate. -/
theorem inOrder_finalScore {cs ds : List Component} {vs ws : List Validation}
    (hsignals : List.Forall₂ Component.SignalsInOrder cs ds)
    (hrate : InOrder 1 (passRate vs) (passRate ws)) :
    InOrder 1 (finalScore cs vs) (finalScore ds ws) := by
  have hfrequencies : List.Forall₂ (InOrder 1) (cs.map Component.frequency)
      (ds.map Component.frequency) := by
    rw [List.forall₂_map_left_iff, List.forall₂_map_right_iff]
    exact hsignals.imp fun _ _ h => h.frequency
  exact (inOrder_meanOf hfrequencies).weigh (inOrder_multiplier hrate) (by decide)

end Scores

/-! ## Bands -/

namespace Thresholds

/-- If a score stays below each threshold that another score stays below, then it is in a band that
is not higher, also if each score has thresholds of its own. -/
theorem rank_classify_le {t t' : Thresholds} {x y : Binary64}
    (hcritical : y.lt t'.critical = true → x.lt t.critical = true)
    (hlow : y.lt t'.low = true → x.lt t.low = true)
    (hnominal : y.lt t'.nominal = true → x.lt t.nominal = true)
    (hoptimal : y.lt t'.optimal = true → x.lt t.optimal = true) :
    (t.classify x).rank ≤ (t'.classify y).rank := by
  unfold classify
  grind [Band.rank]

/-- A score that is not less is in a band that is not lower. -/
theorem rank_classify_mono (t : Thresholds) {x y : Binary64} (h : x.le y = true) :
    (t.classify x).rank ≤ (t.classify y).rank :=
  rank_classify_le (Binary64.lt_of_le_of_lt h) (Binary64.lt_of_le_of_lt h)
    (Binary64.lt_of_le_of_lt h) (Binary64.lt_of_le_of_lt h)

end Thresholds

end ReleaseGate
