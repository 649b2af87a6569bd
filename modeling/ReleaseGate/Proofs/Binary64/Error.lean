import Mathlib.Algebra.BigOperators.Group.List.Basic
import Mathlib.Algebra.Order.Field.Basic
import Mathlib.Algebra.Order.Ring.Abs
import Mathlib.Data.Rat.Cast.Order
import Mathlib.Tactic.Linarith
import Mathlib.Tactic.Positivity
import ReleaseGate.Proofs.Binary64.Order

/-!
# Rounding error

How far a rounded result is from the exact one, for numbers between zero and a whole number. Values
are rational numbers.

* `value`: the exact value of a finite number. Numbers compare as their values.
* `rankOf_step`: one rounding is off by half a step at most.
* `InOrder.abs_value_add`, `InOrder.abs_value_mul`, `InOrder.abs_value_div`: one operation is off
  by a share of `roundoff`, and by `underflow` near zero. Sums are exact there.
* `InOrder.exists_roundWhole`, `InOrder.roundWhole_congr`: the nearest whole number.
* `abs_value_foldl`: the error of a sum from left to right, one addition after the other.
-/

namespace ReleaseGate

namespace Binary64

/-! ## Values -/

/-- The exact value of a finite number. -/
def value (x : Binary64) : ℚ := x.toQuanta / unit

theorem unit_pos_rat : (0 : ℚ) < unit := Nat.cast_pos.mpr unit_pos

section Value

variable {m n : Nat} {x y : Binary64} {r : Nat}

theorem At.value_eq (h : x.At r) : x.value = quanta r / unit := by
  rw [value, h.toQuanta_eq, Int.cast_natCast]

theorem At.value_eq_zero (h : x.At 0) : x.value = 0 := by
  rw [h.value_eq, quanta_zero, Nat.cast_zero, zero_div]

/-- A number at the rank of a whole number that needs no rounding has its value. -/
theorem At.value_eq_natCast (h : x.At (wholeRank n)) (hn : n ≤ 2 ^ 53) : x.value = n := by
  rw [h.value_eq, quanta_wholeRank hn, Nat.cast_mul, mul_div_cancel_right₀]
  exact unit_pos_rat.ne'

theorem value_ofNat (h : n ≤ 2 ^ 53) : (ofNat n).value = n := (at_ofNat n).value_eq_natCast h

theorem InOrder.value_nonneg (h : InOrder n x y) : 0 ≤ x.value := by
  obtain ⟨r, -, hx, -, -, -⟩ := h
  rw [hx.value_eq]
  exact div_nonneg (Nat.cast_nonneg _) unit_pos_rat.le

theorem InOrder.value_le (h : InOrder n x y) (hn : n ≤ 2 ^ 53) : y.value ≤ n := by
  obtain ⟨-, s, -, hy, -, hs⟩ := h
  rw [hy.value_eq, div_le_iff₀ unit_pos_rat]
  exact_mod_cast quanta_le_of_le_wholeRank hn hs

/-- A finite number is in order below a whole number if its value is between zero and that. -/
theorem InOrder.of_value (hfinite : x.isFinite = true) (hzero : 0 ≤ x.value) (hbound : x.value ≤ n)
    (hn : n ≤ 2 ^ 53) : InOrder n x x := by
  match x with
  | .nan => cases hfinite
  | .number negative ⟨r, hr⟩ =>
    have hat : (number negative ⟨r, hr⟩).At r := by
      refine at_number fun hnegative => Nat.eq_zero_of_not_pos fun hpos => ?_
      subst hnegative
      have hquanta : (0 : ℚ) ≤ ((-(quanta r : Int) : Int) : ℚ) / unit := hzero
      rw [le_div_iff₀ unit_pos_rat, zero_mul, Int.cast_nonneg_iff] at hquanta
      have := quanta_pos hpos
      omega
    rw [hat.value_eq, div_le_iff₀ unit_pos_rat] at hbound
    have hquanta : quanta r ≤ quanta (wholeRank n) := by
      rw [quanta_wholeRank hn]
      exact_mod_cast hbound
    exact ⟨r, r, hat, hat, Nat.le_refl r, quanta_strictMono.le_iff_le.mp hquanta⟩

/-- Numbers compare as their values do. -/
theorem InOrder.lt_iff_value (hx : InOrder m x x) (hy : InOrder n y y) :
    x.lt y = true ↔ x.value < y.value := by
  obtain ⟨r, -, hx, -, -, -⟩ := hx
  obtain ⟨s, -, hy, -, -, -⟩ := hy
  rw [lt_iff hx hy, hx.value_eq, hy.value_eq, div_lt_div_iff_of_pos_right unit_pos_rat,
    Nat.cast_lt, quanta_strictMono.lt_iff_lt]

theorem InOrder.le_iff_value (hx : InOrder m x x) (hy : InOrder n y y) :
    x.le y = true ↔ x.value ≤ y.value := by
  rw [← hx.not_lt_iff hy, hy.lt_iff_value hx, not_lt]

end Value

/-! ## One rounding -/

/-- The relative error of one rounding, half the step above one. -/
def roundoff : ℚ := 1 / 2 ^ 53

/-- The absolute error of one rounding near zero, half a quantum. -/
def underflow : ℚ := 1 / (2 * unit)

theorem roundoff_pos : 0 < roundoff := by
  unfold roundoff
  positivity

theorem underflow_pos : 0 < underflow := div_pos one_pos (mul_pos two_pos unit_pos_rat)

theorem underflow_mul_unit : underflow * unit = 1 / 2 := by
  rw [underflow, one_div_mul_eq_div, div_mul_cancel_right₀ unit_pos_rat.ne', one_div]

theorem underflow_le : 4 * underflow ≤ roundoff := by
  have hsize : 2 ^ 54 ≤ unit := by
    rw [unit_eq]
    exact Nat.pow_le_pow_right (by decide) (by decide)
  have hsize : (2 : ℚ) ^ 54 ≤ unit := by exact_mod_cast hsize
  unfold underflow roundoff
  rw [mul_one_div, div_le_div_iff₀ (mul_pos two_pos unit_pos_rat) (by positivity)]
  linarith

section RankOf

variable {n d : Nat}

/-- A quotient is rounded by half a step at most. Steps are single quanta, or the quotient has at
least `2^52` of them. -/
theorem rankOf_step (hd : 0 < d) (htop : rankOf n d < topRank) : ∃ step,
    2 * (quanta (rankOf n d) * d) ≤ 2 * n + step * d ∧
    2 * n ≤ 2 * (quanta (rankOf n d) * d) + step * d ∧ (step = 1 ∨ 2 ^ 52 * (step * d) ≤ n) := by
  obtain ⟨shift, m, hsteps, hrank⟩ := exists_steps n hd
  have hquanta : quanta (rankOf n d) = m * 2 ^ shift := by
    rw [hrank] at htop ⊢
    rw [Nat.min_eq_right (by omega), quanta_steps hsteps.le (hsteps.full.imp_right And.left)]
  have hmagnitude : m * 2 ^ shift * d = m * (d * 2 ^ shift) := by ring
  have hstep : 2 ^ shift * d = d * 2 ^ shift := Nat.mul_comm _ _
  rw [hquanta]
  refine ⟨2 ^ shift, ?_, ?_, ?_⟩
  · rw [hmagnitude, hstep, ← Nat.mul_assoc]
    rcases hsteps.below with h | h
    · exact h.le
    · exact h.1.le
  · rw [hmagnitude, hstep, ← Nat.mul_assoc, ← Nat.succ_mul]
    rcases hsteps.above with h | h
    · exact h.le
    · exact h.1.le
  · rcases hsteps.full with rfl | ⟨-, hfull⟩
    · exact .inl rfl
    · rw [hstep, ← binade_eq]
      exact .inr hfull

theorem abs_quanta_sub_le (hd : 0 < d) (htop : rankOf n d < topRank) :
    |(quanta (rankOf n d) : ℚ) - n / d| ≤ n / d * roundoff + 1 / 2 := by
  obtain ⟨step, hbelow, habove, hsize⟩ := rankOf_step hd htop
  generalize quanta (rankOf n d) = q at hbelow habove
  have hd : (0 : ℚ) < d := Nat.cast_pos.mpr hd
  have hhalf : |(q : ℚ) - n / d| ≤ step / 2 := by
    have hbelow : (2 : ℚ) * (q * d) ≤ 2 * n + step * d := by exact_mod_cast hbelow
    have habove : (2 : ℚ) * n ≤ 2 * (q * d) + step * d := by exact_mod_cast habove
    rw [abs_le, neg_le_sub_iff_le_add, sub_le_iff_le_add', div_le_iff₀ hd,
      ← sub_le_iff_le_add, le_div_iff₀ hd]
    constructor <;> linarith
  refine hhalf.trans ?_
  rcases hsize with rfl | hsize
  · have : 0 ≤ (n : ℚ) / d * roundoff := mul_nonneg (by positivity) roundoff_pos.le
    rw [Nat.cast_one]
    linarith
  · have hsize : (2 : ℚ) ^ 52 * (step * d) ≤ n := by exact_mod_cast hsize
    have : (2 : ℚ) ^ 52 * step ≤ n / d := by
      rw [le_div_iff₀ hd]
      linarith
    unfold roundoff
    linarith

/-- A whole number of quanta is a number unless it is large. -/
theorem abs_quanta_sub_le_one (htop : rankOf n 1 < topRank) :
    |(quanta (rankOf n 1) : ℚ) - n| ≤ n * roundoff := by
  obtain ⟨step, hbelow, habove, hsize⟩ := rankOf_step Nat.one_pos htop
  generalize quanta (rankOf n 1) = q at hbelow habove
  rcases hsize with rfl | hsize
  · obtain rfl : q = n := by omega
    rw [sub_self, abs_zero]
    exact mul_nonneg (Nat.cast_nonneg q) roundoff_pos.le
  · have hbelow : (2 : ℚ) * q ≤ 2 * n + step := by exact_mod_cast (by omega : 2 * q ≤ 2 * n + step)
    have habove : (2 : ℚ) * n ≤ 2 * q + step := by exact_mod_cast (by omega : 2 * n ≤ 2 * q + step)
    have hsize : (2 : ℚ) ^ 52 * step ≤ n := by exact_mod_cast (by omega : 2 ^ 52 * step ≤ n)
    unfold roundoff
    rw [abs_le]
    constructor <;> linarith

end RankOf

/-! ## One operation -/

namespace InOrder

variable {m n : Nat} {x y : Binary64}

theorem abs_value_add (hx : InOrder m x x) (hy : InOrder n y y) (hm : m ≤ 2 ^ 53)
    (hn : n ≤ 2 ^ 53) :
    |(x + y).value - (x.value + y.value)| ≤ (x.value + y.value) * roundoff := by
  have hbound := hx.add hy hm hn
  obtain ⟨r, hx, hr⟩ := hx.exists_at (by omega)
  obtain ⟨s, hy, hs⟩ := hy.exists_at (by omega)
  have hsum := hx.add hy hr hs
  have herror := abs_quanta_sub_le_one (hbound.lt_topRank (by omega) hsum)
  rw [hsum.value_eq, hx.value_eq, hy.value_eq, ← add_div, ← sub_div, abs_div,
    abs_of_pos unit_pos_rat, div_mul_eq_mul_div, div_le_div_iff_of_pos_right unit_pos_rat]
  exact_mod_cast herror

theorem abs_value_mul (hx : InOrder m x x) (hy : InOrder n y y) (hm : m ≤ 2 ^ 53)
    (hn : n ≤ 2 ^ 53) (hmn : m * n < 2 ^ 64) :
    |(x * y).value - x.value * y.value| ≤ x.value * y.value * roundoff + underflow := by
  have hbound := hx.mul hy hm hn
  obtain ⟨r, hx, hr⟩ := hx.exists_at (by omega)
  obtain ⟨s, hy, hs⟩ := hy.exists_at (by omega)
  have hproduct := hx.mul hy hr hs
  have herror := abs_quanta_sub_le unit_pos (hbound.lt_topRank hmn hproduct)
  have hunit := unit_pos_rat
  have hexact : (quanta r : ℚ) / unit * (quanta s / unit) =
      ((quanta r * quanta s : Nat) : ℚ) / unit / unit := by
    rw [div_mul_div_comm, div_div, Nat.cast_mul]
  rw [hproduct.value_eq, hx.value_eq, hy.value_eq, hexact, ← sub_div, abs_div, abs_of_pos hunit,
    div_le_iff₀ hunit, add_mul, mul_right_comm, div_mul_cancel₀ _ hunit.ne', underflow_mul_unit]
  exact herror

/-- A quotient of a count. -/
theorem abs_value_div (hx : InOrder m x x) (hm : m ≤ n) (hn : n ≤ 2 ^ 53) (hpos : 0 < n) :
    |(x / ofNat n).value - x.value / n| ≤ x.value / n * roundoff + underflow := by
  have hbound := hx.div_ofNat (by omega) hm hpos
  obtain ⟨r, hx, hr⟩ := hx.exists_at (by omega)
  have hcount := quanta_wholeRank hn
  have hrank := wholeRank_pos hpos
  have hquotient := hx.div (at_ofNat n) hr hrank (wholeRank_lt_topRank (by omega))
  have herror :=
    abs_quanta_sub_le (quanta_pos hrank) (hbound.lt_topRank (by decide) hquotient)
  have hunit := unit_pos_rat
  have hexact : ((quanta r * unit : Nat) : ℚ) / (quanta (wholeRank n) : Nat) = quanta r / n := by
    rw [hcount, Nat.cast_mul, Nat.cast_mul, mul_div_mul_right _ _ hunit.ne']
  rw [hexact] at herror
  rw [hquotient.value_eq, hx.value_eq, div_right_comm, ← sub_div, abs_div, abs_of_pos hunit,
    div_le_iff₀ hunit, add_mul, mul_right_comm, div_mul_cancel₀ _ hunit.ne', underflow_mul_unit]
  exact herror

end InOrder

/-! ## Whole numbers -/

section RoundWhole

variable {m n : Nat} {x y : Binary64} {r s : Nat}

/-- Numbers with different nearest whole numbers have a half between them. -/
theorem exists_half_between (hx : x.At r) (hy : y.At s)
    (h : wholeQuanta (quanta r) < wholeQuanta (quanta s)) :
    ∃ k : Nat, 2 * x.value < 2 * k + 1 ∧ 2 * k + 1 ≤ 2 * y.value := by
  obtain ⟨k, hbelow, habove⟩ := exists_half_of_wholeQuanta_lt h
  have hbelow : (2 : ℚ) * quanta r < (2 * k + 1) * unit := by exact_mod_cast hbelow
  have habove : (2 * k + 1) * (unit : ℚ) ≤ 2 * quanta s := by exact_mod_cast habove
  refine ⟨k, ?_, ?_⟩
  · rwa [hx.value_eq, ← mul_div_assoc, div_lt_iff₀ unit_pos_rat]
  · rwa [hy.value_eq, ← mul_div_assoc, le_div_iff₀ unit_pos_rat]

/-- Numbers with no half between them have the same nearest whole number. -/
theorem InOrder.roundWhole_congr (hx : InOrder m x x) (hy : InOrder n y y) (hm : m < 2 ^ 64)
    (hn : n < 2 ^ 64) (hsign : y.isNegative = x.isNegative)
    (hxy : ∀ k : Nat, ¬(2 * x.value < 2 * k + 1 ∧ 2 * k + 1 ≤ 2 * y.value))
    (hyx : ∀ k : Nat, ¬(2 * y.value < 2 * k + 1 ∧ 2 * k + 1 ≤ 2 * x.value)) :
    y.roundWhole = x.roundWhole := by
  obtain ⟨r, hx, hr⟩ := hx.exists_at hm
  obtain ⟨s, hy, hs⟩ := hy.exists_at hn
  have hwhole : wholeQuanta (quanta s) = wholeQuanta (quanta r) := by
    by_contra hne
    rcases Nat.lt_or_gt_of_ne hne with hlt | hlt
    · obtain ⟨k, hk⟩ := exists_half_between hy hx hlt
      exact hyx k hk
    · obtain ⟨k, hk⟩ := exists_half_between hx hy hlt
      exact hxy k hk
  have hround := hy.roundWhole hs
  rw [hwhole] at hround
  refine hround.eq_of_isNegative (hx.roundWhole hr) ?_
  rw [isNegative_roundWhole, isNegative_roundWhole, hsign]

/-- The nearest whole number is one, and no further than a half. -/
theorem InOrder.exists_roundWhole (hx : InOrder n x x) (hn : n ≤ 2 ^ 53) :
    ∃ k ≤ n, x.roundWhole.At (wholeRank k) ∧ |(k : ℚ) - x.value| ≤ 1 / 2 := by
  obtain ⟨r, hxr, hr⟩ := hx.exists_at (by omega)
  have hat : x.roundWhole.At (wholeRank ((2 * quanta r + unit) / (2 * unit))) := hxr.roundWhole hr
  have hvalue := hx.value_le hn
  have hunit := unit_pos_rat
  have hbelow := Nat.div_mul_le_self (2 * quanta r + unit) (2 * unit)
  have habove := Nat.lt_mul_div_succ (2 * quanta r + unit) (Nat.mul_pos Nat.two_pos unit_pos)
  rw [hxr.value_eq] at hvalue ⊢
  generalize (2 * quanta r + unit) / (2 * unit) = k at hat hbelow habove
  have hbelow : (k : ℚ) * (2 * unit) ≤ 2 * quanta r + unit := by exact_mod_cast hbelow
  have habove : (2 : ℚ) * quanta r + unit < 2 * unit * (k + 1) := by exact_mod_cast habove
  have hlow : (k : ℚ) - 1 / 2 ≤ quanta r / unit := by
    rw [le_div_iff₀ hunit]
    linarith
  have hhigh : (quanta r : ℚ) / unit ≤ k + 1 / 2 := by
    rw [div_le_iff₀ hunit]
    linarith
  have hk : k ≤ n := by
    have : (k : ℚ) < n + 1 := by linarith
    exact Nat.lt_succ_iff.mp (by exact_mod_cast this)
  exact ⟨k, hk, hat, abs_le.mpr ⟨by linarith, by linarith⟩⟩

end RoundWhole

/-! ## Sums from left to right -/

/-- A sum of numbers up to one, from left to right. The partial sums are at most as large as the
count, and each addition is off by that share of `roundoff`. -/
theorem abs_value_foldl {xs : List Binary64} (hxs : ∀ x ∈ xs, InOrder 1 x x) {k : Nat}
    {a : Binary64} (ha : InOrder k a a) (hk : k + xs.length ≤ 2 ^ 53) :
    |(xs.foldl (· + ·) a).value - (a.value + (xs.map value).sum)| ≤
      (xs.length * k + xs.length * (xs.length + 1) / 2) * roundoff := by
  induction xs generalizing k a with
  | nil => simp
  | cons x xs ih =>
    rw [List.length_cons] at hk
    have hx := hxs x List.mem_cons_self
    have hstep := ha.abs_value_add hx (by omega) (by decide)
    have hrest := ih (fun y hy => hxs y (List.mem_cons_of_mem x hy))
      (ha.add hx (by omega) (by decide)) (by omega)
    have hbound : a.value + x.value ≤ k + 1 := by
      have := ha.value_le (by omega)
      have := hx.value_le (by decide)
      push_cast at this
      linarith
    have hscaled := mul_le_mul_of_nonneg_right hbound roundoff_pos.le
    rw [List.foldl_cons, List.map_cons, List.sum_cons, List.length_cons]
    push_cast at hrest ⊢
    calc |(xs.foldl (· + ·) (a + x)).value - (a.value + (x.value + (xs.map value).sum))|
        = |((xs.foldl (· + ·) (a + x)).value - ((a + x).value + (xs.map value).sum)) +
            ((a + x).value - (a.value + x.value))| := by congr 1; ring
      _ ≤ (xs.length * (k + 1) + xs.length * (xs.length + 1) / 2) * roundoff +
            (k + 1) * roundoff := (abs_add_le _ _).trans (add_le_add hrest (hstep.trans hscaled))
      _ = ((xs.length + 1) * k + (xs.length + 1) * (xs.length + 1 + 1) / 2) * roundoff := by ring

end Binary64

end ReleaseGate
