import ReleaseGate.Proofs.Binary64.Error
import ReleaseGate.Proofs.Scoring.Range

/-!
# How far a score is from its exact value

The frequencies of a report are added up from left to right, so the score of the same components in
another order can be another number. Both are near the exact score, which has no order.

* `abs_value_meanOf`, `SoundInputs.abs_value_finalScore`: a mean and a score against their exact
  values.
* `spread`, `SoundInputs.abs_finalScore_sub_le`: how far the scores of two orders can be apart.
* `lt_congr_of_far`, `le_congr_of_far`, `Thresholds.classify_congr_of_far`: a limit decides alike
  about two numbers that are nearer to each other than to the limit.
* `fourPlaces_congr_of_far`, `abs_fourPlaces_sub_le`: they are shown alike unless they are near a
  midpoint of four places, and one place apart even then.
-/

namespace ReleaseGate

open Binary64 (InOrder value roundoff underflow)

/-! ## Means -/

section Means

variable {xs : List Binary64}

theorem inOrder_sumOf (hxs : ∀ x ∈ xs, InOrder 1 x x) (hlength : xs.length ≤ 2 ^ 53) :
    InOrder xs.length (sumOf xs) (sumOf xs) := by
  have hsum := inOrder_foldl (List.forall₂_same.mpr hxs) (k := 0) (Binary64.InOrder.zero _ true)
  rwa [Nat.zero_add, Nat.min_eq_left hlength] at hsum

/-- A sum is off by the sum of its counts, its mean by half the count, and dividing adds one
rounding. -/
theorem abs_value_meanOf (hxs : ∀ x ∈ xs, InOrder 1 x x) (hlength : xs.length ≤ 2 ^ 53) :
    |(meanOf xs).value - (xs.map value).sum / xs.length| ≤
      (xs.length + 3) / 2 * roundoff + underflow := by
  unfold meanOf
  by_cases hnil : xs = []
  · subst hnil
    have hzero : (0 : Binary64).value = 0 := Binary64.at_nat_zero.value_eq_zero
    simp only [List.isEmpty_nil, if_true, List.map_nil, List.sum_nil, zero_div, hzero, sub_zero,
      abs_zero]
    exact add_nonneg (mul_nonneg (by positivity) Binary64.roundoff_pos.le)
      Binary64.underflow_pos.le
  · have hpos := List.length_pos_iff.mpr hnil
    have hcount : (0 : ℚ) < xs.length := Nat.cast_pos.mpr hpos
    have hsum := inOrder_sumOf hxs hlength
    have hfold : |(sumOf xs).value - (xs.map value).sum| ≤
        xs.length * ((xs.length + 1) / 2 * roundoff) := by
      have hstart : (Binary64.signedZero true).value = 0 := (Binary64.at_zero true).value_eq_zero
      have h := Binary64.abs_value_foldl hxs (Binary64.InOrder.zero 0 true) (by omega)
      rw [hstart, zero_add] at h
      refine h.trans_eq ?_
      push_cast
      ring
    have hshare : (sumOf xs).value / xs.length ≤ 1 := by
      rw [div_le_one hcount]
      exact hsum.value_le hlength
    have hround : |(sumOf xs / .ofNat xs.length).value - (sumOf xs).value / xs.length| ≤
        roundoff + underflow := by
      refine (hsum.abs_value_div (Nat.le_refl _) hlength hpos).trans ?_
      linarith only [mul_le_mul_of_nonneg_right hshare Binary64.roundoff_pos.le]
    have hmean : |(sumOf xs).value / xs.length - (xs.map value).sum / xs.length| ≤
        (xs.length + 1) / 2 * roundoff := by
      rw [← sub_div, abs_div, abs_of_pos hcount, div_le_iff₀' hcount]
      exact hfold
    rw [if_neg (by simpa using hnil)]
    refine (abs_sub_le _ _ _).trans ((add_le_add hround hmean).trans_eq ?_)
    ring

end Means

/-! ## Scores -/

section Scores

variable {cs ds : List Component} {vs ws : List Validation}

/-- What a score would be without rounding: the mean of frequencies, attenuated. -/
def exactScore (cs : List Component) (vs : List Validation) : ℚ :=
  (cs.map fun c => c.frequency.value).sum / cs.length * (multiplier (passRate vs)).value

theorem SoundInputs.abs_value_finalScore (h : SoundInputs cs vs) (hlength : cs.length ≤ 2 ^ 53)
    (h64 : vs.length < 2 ^ 64) :
    |(finalScore cs vs).value - exactScore cs vs| ≤ (cs.length + 6) / 2 * roundoff := by
  have hmean := inOrder_meanOf (List.forall₂_same.mpr h.frequencies)
  have hfactor := inOrder_multiplier (inOrder_passRate h64)
  have hround := hmean.abs_value_mul hfactor (by decide) (by decide) (by decide)
  have herror := abs_value_meanOf h.frequencies (by rwa [List.length_map])
  rw [List.length_map, List.map_map] at herror
  have hmean₁ := hmean.value_le (by decide)
  have hfactor₀ := hfactor.value_nonneg
  have hfactor₁ := hfactor.value_le (by decide)
  unfold finalScore exactScore
  rw [Nat.cast_one] at hmean₁ hfactor₁
  generalize meanOf (cs.map Component.frequency) = mean at *
  generalize multiplier (passRate vs) = factor at *
  have hproduct : mean.value * factor.value ≤ 1 := mul_le_one₀ hmean₁ hfactor₀ hfactor₁
  have hround : |(mean * factor).value - mean.value * factor.value| ≤ roundoff + underflow := by
    refine hround.trans ?_
    linarith only [mul_le_mul_of_nonneg_right hproduct Binary64.roundoff_pos.le]
  have herror : |mean.value * factor.value -
      (cs.map (value ∘ Component.frequency)).sum / cs.length * factor.value| ≤
      (cs.length + 3) / 2 * roundoff + underflow := by
    rw [← sub_mul, abs_mul, abs_of_nonneg hfactor₀]
    exact (mul_le_of_le_one_right (abs_nonneg _) hfactor₁).trans herror
  refine (abs_sub_le _ _ _).trans ((add_le_add hround herror).trans ?_)
  linarith only [Binary64.underflow_le]

/-- How far the scores of `n` components can be apart in two orders. -/
def spread (n : Nat) : ℚ := (n + 6) * roundoff

/-- Scores of the same inputs in two orders. -/
theorem SoundInputs.abs_finalScore_sub_le (h : SoundInputs cs vs) (hds : ds.Perm cs)
    (hws : ws.Perm vs) (h64 : vs.length < 2 ^ 64) :
    |(finalScore ds ws).value - (finalScore cs vs).value| ≤ spread cs.length := by
  have h' := h.perm hds hws
  have h64' : ws.length < 2 ^ 64 := hws.length_eq ▸ h64
  unfold spread
  by_cases hlength : cs.length ≤ 2 ^ 53
  · have hexact : exactScore ds ws = exactScore cs vs := by
      rw [exactScore, exactScore, (hds.map _).sum_eq, hds.length_eq, passRate_perm hws]
    have herror := h.abs_value_finalScore hlength h64
    have herror' := h'.abs_value_finalScore (hds.length_eq ▸ hlength) h64'
    rw [hexact, hds.length_eq] at herror'
    rw [abs_sub_comm] at herror
    refine (abs_sub_le _ _ _).trans ((add_le_add herror' herror).trans_eq ?_)
    ring
  · -- With so many components the bound says nothing.
    have hscore := h.inOrder_finalScore h64
    have hscore' := h'.inOrder_finalScore h64'
    have hcount : (2 : ℚ) ^ 53 ≤ cs.length := by exact_mod_cast (Nat.lt_of_not_le hlength).le
    have hone : (1 : ℚ) ≤ (cs.length + 6) * roundoff := by
      unfold Binary64.roundoff
      linarith
    have h₀ := hscore.value_nonneg
    have h₀' := hscore'.value_nonneg
    have h₁ := hscore.value_le (by decide)
    have h₁' := hscore'.value_le (by decide)
    rw [Nat.cast_one] at h₁ h₁'
    rw [abs_le]
    constructor <;> linarith

end Scores

/-! ## Limits -/

section Limits

variable {x y limit : Binary64} {distance : ℚ}

/-- A limit that is further from a number than another number is decides alike about both. -/
theorem lt_congr_of_far (hx : InOrder 1 x x) (hy : InOrder 1 y y) (hlimit : InOrder 1 limit limit)
    (hnear : |y.value - x.value| ≤ distance) (hfar : distance < |x.value - limit.value|) :
    y.lt limit = x.lt limit := by
  rw [Bool.eq_iff_iff, hy.lt_iff_value hlimit, hx.lt_iff_value hlimit]
  obtain ⟨hbelow, habove⟩ := abs_le.mp hnear
  rcases lt_abs.mp hfar with hfar | hfar
  · constructor <;> intro h <;> linarith
  · constructor <;> intro h <;> linarith

theorem le_congr_of_far (hx : InOrder 1 x x) (hy : InOrder 1 y y) (hlimit : InOrder 1 limit limit)
    (hnear : |y.value - x.value| ≤ distance) (hfar : distance < |x.value - limit.value|) :
    limit.le y = limit.le x := by
  rw [Bool.eq_iff_iff, ← hlimit.not_lt_iff hy, ← hlimit.not_lt_iff hx,
    lt_congr_of_far hx hy hlimit hnear hfar]

theorem Thresholds.classify_congr_of_far {t : Thresholds} (ht : t.Sound) (hx : InOrder 1 x x)
    (hy : InOrder 1 y y) (hnear : |y.value - x.value| ≤ distance)
    (hfar : ∀ threshold ∈ t.ordered, distance < |x.value - threshold.2.value|) :
    t.classify y = t.classify x := by
  have hunit := ht.inUnit
  simp only [inUnitInterval_iff] at hunit
  have hside := (forall_mem_ordered fun limit => y.lt limit = x.lt limit).mp fun threshold hmem =>
    lt_congr_of_far hx hy (hunit threshold hmem) hnear (hfar threshold hmem)
  obtain ⟨hcritical, hlow, hnominal, hoptimal⟩ := hside
  rw [classify, classify, hcritical, hlow, hnominal, hoptimal]

end Limits

/-! ## Four places -/

section FourPlaces

variable {x y : Binary64} {distance : ℚ}

/-- A number scaled for its four places. -/
theorem inOrder_scaled (hx : InOrder 1 x x) : InOrder 10000 (x * 10000) (x * 10000) := by
  have hproduct := hx.mul (Binary64.InOrder.ofNat (Nat.le_refl 10000)) (by decide) (by decide)
  rwa [Nat.one_mul] at hproduct

theorem isNegative_scaled (hx : InOrder 1 x x) : (x * 10000).isNegative = x.isNegative := by
  have hten := Binary64.InOrder.ofNat (Nat.le_refl 10000)
  exact (hx.isNegative_mul hten (by decide) (by decide)).trans (Bool.bne_false _)

theorem abs_value_scaled (hx : InOrder 1 x x) :
    |(x * 10000).value / 10000 - x.value| ≤ 2 * roundoff := by
  have hproduct := hx.abs_value_mul (Binary64.InOrder.ofNat (Nat.le_refl 10000)) (by decide)
    (by decide) (by decide)
  rw [Binary64.value_ofNat (by decide)] at hproduct
  have hvalue := hx.value_le (by decide)
  rw [Nat.cast_one] at hvalue
  have hscaled := mul_le_mul_of_nonneg_right hvalue Binary64.roundoff_pos.le
  have hunderflow := Binary64.underflow_le
  have hroundoff := Binary64.roundoff_pos
  change |(x * 10000).value - x.value * ((10000 : Nat) : ℚ)| ≤ _ at hproduct
  push_cast at hproduct
  obtain ⟨hbelow, habove⟩ := abs_le.mp hproduct
  rw [abs_le]
  constructor <;> linarith

/-- Numbers that are shown differently have a midpoint of four places between them, up to what their
scaling is off by. -/
theorem fourPlaces_congr_of_far (hx : InOrder 1 x x) (hy : InOrder 1 y y)
    (hsign : y.isNegative = x.isNegative) (hnear : |y.value - x.value| ≤ distance)
    (hfar : ∀ k : Nat, distance + 2 * roundoff < |x.value - (2 * k + 1) / 20000|) :
    fourPlaces y = fourPlaces x := by
  obtain ⟨hbelow, habove⟩ := abs_le.mp hnear
  obtain ⟨hbelow₁, habove₁⟩ := abs_le.mp (abs_value_scaled hx)
  obtain ⟨hbelow₂, habove₂⟩ := abs_le.mp (abs_value_scaled hy)
  have hsigns : (y * 10000).isNegative = (x * 10000).isNegative := by
    rw [isNegative_scaled hy, isNegative_scaled hx, hsign]
  have hround := (inOrder_scaled hx).roundWhole_congr (inOrder_scaled hy) (by decide) (by decide)
    hsigns
  rw [fourPlaces, fourPlaces, hround]
  · rintro k ⟨hless, hreach⟩
    refine (hfar k).not_ge (abs_le.mpr ?_)
    constructor <;> linarith
  · rintro k ⟨hless, hreach⟩
    refine (hfar k).not_ge (abs_le.mpr ?_)
    constructor <;> linarith

/-- A number is shown as a count of ten thousandths: the whole number nearest to it once it is
scaled, up to what scaling back is off by. -/
theorem exists_fourPlaces (hx : InOrder 1 x x) : ∃ k ≤ 10000,
    (x * 10000).roundWhole.At (Binary64.wholeRank k) ∧ |(k : ℚ) - (x * 10000).value| ≤ 1 / 2 ∧
      |(fourPlaces x).value - k / 10000| ≤ 2 * roundoff := by
  have hscaled := inOrder_scaled hx
  obtain ⟨k, hk, hat, hhalf⟩ := hscaled.exists_roundWhole (by decide)
  have hback := (hscaled.roundWhole (by decide)).abs_value_div (Nat.le_refl 10000) (by decide)
    (by decide)
  rw [hat.value_eq_natCast (hk.trans (by decide))] at hback
  change |(fourPlaces x).value - (k : ℚ) / ((10000 : Nat) : ℚ)| ≤ _ at hback
  have hshare : (k : ℚ) / ((10000 : Nat) : ℚ) ≤ 1 := by
    rw [div_le_one (by decide)]
    exact_mod_cast hk
  have hrounded := mul_le_mul_of_nonneg_right hshare Binary64.roundoff_pos.le
  push_cast at hback hrounded
  refine ⟨k, hk, hat, hhalf, hback.trans ?_⟩
  linarith only [hrounded, Binary64.underflow_le, Binary64.roundoff_pos]

/-- A number is shown within half of its last place, up to what scaling it back and forth is off
by. -/
theorem abs_value_fourPlaces (hx : InOrder 1 x x) :
    |(fourPlaces x).value - x.value| ≤ 1 / 20000 + 4 * roundoff := by
  obtain ⟨k, -, -, hhalf, hback⟩ := exists_fourPlaces hx
  obtain ⟨hbelow, habove⟩ := abs_le.mp (abs_value_scaled hx)
  obtain ⟨hbelow', habove'⟩ := abs_le.mp hhalf
  obtain ⟨hbelow'', habove''⟩ := abs_le.mp hback
  rw [abs_le]
  constructor <;> linarith

/-- Numbers that are near to each other are shown near to each other, one place apart. -/
theorem abs_fourPlaces_sub_le (hx : InOrder 1 x x) (hy : InOrder 1 y y)
    (hnear : |y.value - x.value| ≤ distance) :
    |(fourPlaces y).value - (fourPlaces x).value| ≤ 1 / 10000 + (distance + 8 * roundoff) := by
  obtain ⟨hbelow, habove⟩ := abs_le.mp hnear
  obtain ⟨hbelow₁, habove₁⟩ := abs_le.mp (abs_value_fourPlaces hx)
  obtain ⟨hbelow₂, habove₂⟩ := abs_le.mp (abs_value_fourPlaces hy)
  rw [abs_le]
  constructor <;> linarith

end FourPlaces

end ReleaseGate
