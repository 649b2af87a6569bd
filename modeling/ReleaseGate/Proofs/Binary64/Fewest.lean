import ReleaseGate.Proofs.Binary64.Order
import ReleaseGate.Proofs.Binary64.Shortest

/-!
# No fewer digits read back

The decimal that is written for a rank is on the coarsest grid that has a point which rounds to the
rank. A grid that has one has one next to the rank's magnitude, where it is looked for; and the
search starts above all of these grids.

* `gridPointRoundsTo_of_rankOf`: a quotient by a power of ten is a point that rounds to its rank.
* `roundsTo_neighbour`: of a grid only the two neighbours of the magnitude have to be tried.
* `exponent_le_coarsestGrid`: where the search starts is high enough.
* `exponent_le_shortest`: a point that rounds to a rank is on no coarser grid than its decimal.
-/

namespace ReleaseGate

namespace Binary64

variable {rank c : Nat} {exponent : Int}

/-! ## The points of a grid -/

/-- The point of a grid rounds to a rank if it does so as a quotient of quanta. -/
theorem gridPointRoundsTo_of_rankOf (hpos : 0 < rank) (hrank : rank < topRank)
    (h : rankOf (c * Nat.pow 10 exponent.toNat * unit) (gridDivisor exponent) = rank) :
    gridPointRoundsTo rank exponent c = true := by
  have hx : c * gridStep exponent = 2 * (c * Nat.pow 10 exponent.toNat * unit) := by
    unfold gridStep
    ring
  rw [gridPointRoundsTo_iff hpos, hx]
  generalize c * Nat.pow 10 exponent.toNat * unit = n at h
  have hlt : rank - 1 < rankOf n (gridDivisor exponent) := by omega
  have hle : ¬rank < rankOf n (gridDivisor exponent) := by omega
  rw [lt_rankOf_iff (gridDivisor_pos exponent) (by omega)] at hlt
  rw [lt_rankOf_iff (gridDivisor_pos exponent) hrank] at hle
  omega

theorem gridStep_pos (exponent : Int) : 0 < gridStep exponent := by
  rw [gridStep_eq]
  exact Nat.mul_pos (Nat.two_pow_pos _) (Nat.pow_pos (by decide))

/-- The last point of a grid that is not above the magnitude of a rank. -/
def gridFloor (rank : Nat) (exponent : Int) : Nat :=
  2 * quanta rank * gridDivisor exponent / gridStep exponent

/-- A grid with a point that rounds to a rank has one next to the rank's magnitude, because any
other one is further away on the same side. -/
theorem roundsTo_neighbour (hpos : 0 < rank) (h : gridPointRoundsTo rank exponent c = true) :
    gridPointRoundsTo rank exponent (gridFloor rank exponent) = true ∨
      gridPointRoundsTo rank exponent (gridFloor rank exponent + 1) = true := by
  have hdivisor := gridDivisor_pos exponent
  have hlow : midpoint (rank - 1) * gridDivisor exponent <
      2 * quanta rank * gridDivisor exponent :=
    Nat.mul_lt_mul_of_pos_right (midpoint_pred_lt hpos) hdivisor
  have hhigh : 2 * quanta rank * gridDivisor exponent < midpoint rank * gridDivisor exponent :=
    Nat.mul_lt_mul_of_pos_right (quanta_lt_midpoint rank) hdivisor
  have hfloor : gridFloor rank exponent * gridStep exponent ≤
      2 * quanta rank * gridDivisor exponent := Nat.div_mul_le_self _ _
  have hnext : 2 * quanta rank * gridDivisor exponent <
      (gridFloor rank exponent + 1) * gridStep exponent :=
    (Nat.lt_mul_div_succ _ (gridStep_pos exponent)).trans_eq (Nat.mul_comm _ _)
  simp only [gridPointRoundsTo_iff hpos] at h ⊢
  rcases Nat.lt_or_ge (gridFloor rank exponent) c with hc | hc
  · right
    have hreach : (gridFloor rank exponent + 1) * gridStep exponent ≤ c * gridStep exponent :=
      Nat.mul_le_mul_right _ hc
    omega
  · left
    have hreach : c * gridStep exponent ≤ gridFloor rank exponent * gridStep exponent :=
      Nat.mul_le_mul_right _ hc
    omega

/-- The search on a grid finds a point that rounds to the rank if there is one. -/
theorem isSome_nearestGridPoint? (tie : Tie) (hpos : 0 < rank)
    (h : gridPointRoundsTo rank exponent c = true) :
    (nearestGridPoint? tie rank exponent).isSome = true := by
  have hneighbour := roundsTo_neighbour hpos h
  unfold nearestGridPoint?
  extract_lets value below rest preferAbove first second
  have htried : gridPointRoundsTo rank exponent first = true ∨
      gridPointRoundsTo rank exponent second = true := by
    cases hprefer : preferAbove with
    | false =>
      simp only [first, second, hprefer, Bool.false_eq_true, if_false]
      exact hneighbour
    | true =>
      simp only [first, second, hprefer, if_true]
      exact hneighbour.symm
  split
  · rfl
  · next hfirst =>
    rw [if_pos (htried.resolve_left hfirst)]
    rfl

/-! ## Where the search starts -/

/-- A power of two has fewer digits than 0.302 times its exponent and one more. -/
theorem two_pow_lt_ten_pow (n : Nat) : 2 ^ n < 10 ^ (n * 302 / 1000 + 1) := by
  have hbase : 2 ^ 93 ≤ 10 ^ 28 := by decide
  refine lt_of_pow_lt_pow_left₀ 93 (Nat.zero_le _) ?_
  calc (2 ^ n) ^ 93 = (2 ^ 93) ^ n := by rw [← Nat.pow_mul, ← Nat.pow_mul, Nat.mul_comm]
    _ ≤ (10 ^ 28) ^ n := Nat.pow_le_pow_left hbase n
    _ = 10 ^ (28 * n) := (Nat.pow_mul 10 28 n).symm
    _ < 10 ^ ((n * 302 / 1000 + 1) * 93) := Nat.pow_lt_pow_right (by decide) (by omega)
    _ = (10 ^ (n * 302 / 1000 + 1)) ^ 93 := Nat.pow_mul 10 _ 93

/-- The midpoint above a magnitude is below the second power of two after it. -/
theorem midpoint_lt_two_pow (rank : Nat) :
    midpoint rank < 2 ^ ((quanta rank).log2 + 2) := by
  have hbelow : quanta rank < 2 ^ ((quanta rank).log2 + 1) := Nat.lt_log2_self
  have hpower : 2 ^ ((quanta rank).log2 + 2) = 2 * 2 ^ ((quanta rank).log2 + 1) := Nat.pow_succ'
  obtain ⟨top, -, htop⟩ := exists_quanta_eq (m := 1) (by decide) ((quanta rank).log2 + 1)
  rw [Nat.one_mul] at htop
  have hnext : quanta (rank + 1) ≤ quanta top := by
    refine quanta_strictMono.monotone (quanta_strictMono.lt_iff_lt.mp ?_)
    rwa [htop]
  unfold midpoint
  omega

/-- No grid above the one where the search starts has a point that rounds to the rank. -/
theorem exponent_le_coarsestGrid (hpos : 0 < rank) (h : gridPointRoundsTo rank exponent c = true) :
    exponent ≤ finestGrid + coarsestGrid rank := by
  have hc := Nat.pos_of_ne_zero (ne_zero_of_roundsTo hpos h)
  have hpoint := le_midpoint_of_roundsTo hpos h
  have hmidpoint := midpoint_lt_two_pow rank
  have hpowers := two_pow_lt_ten_pow ((quanta rank).log2 + 2)
  unfold coarsestGrid finestGrid
  generalize (quanta rank).log2 = size at hmidpoint hpowers ⊢
  have hpower : 2 ^ (finest + 1) * 10 ^ exponent.toNat <
      10 ^ ((size + 2) * 302 / 1000 + 1 + (-exponent).toNat) := calc
    2 ^ (finest + 1) * 10 ^ exponent.toNat = gridStep exponent := (gridStep_eq exponent).symm
    _ ≤ c * gridStep exponent := Nat.le_mul_of_pos_left _ hc
    _ ≤ midpoint rank * gridDivisor exponent := hpoint
    _ < 10 ^ ((size + 2) * 302 / 1000 + 1) * gridDivisor exponent :=
      Nat.mul_lt_mul_of_pos_right (hmidpoint.trans hpowers) (gridDivisor_pos exponent)
    _ = 10 ^ ((size + 2) * 302 / 1000 + 1 + (-exponent).toNat) := (Nat.pow_add 10 _ _).symm
  -- With its exponent in sight the power of ten would be computed.
  obtain ⟨places, hplaces, hunit⟩ : ∃ places, places = 323 ∧ 10 ^ places ≤ 2 ^ (finest + 1) :=
    ⟨323, rfl, by decide +kernel⟩
  have hdigits : 10 ^ (places + exponent.toNat) <
      10 ^ ((size + 2) * 302 / 1000 + 1 + (-exponent).toNat) := by
    rw [Nat.pow_add]
    exact (Nat.mul_le_mul_right _ hunit).trans_lt hpower
  have hless := (Nat.pow_lt_pow_iff_right (by decide)).mp hdigits
  unfold finest
  omega

/-! ## The coarsest grid -/

theorem exponent_le_shortestFrom (tie : Tie) (hpos : 0 < rank)
    (h : gridPointRoundsTo rank exponent c = true) {steps : Nat}
    (hstart : exponent ≤ finestGrid + steps) :
    exponent ≤ (shortestFrom tie rank steps).exponent := by
  induction steps with
  | zero => simpa [shortestFrom] using hstart
  | succ steps ih =>
    unfold shortestFrom
    dsimp only
    split
    · simpa using hstart
    · next hnone =>
      refine ih ?_
      have hne : exponent ≠ finestGrid + (steps + 1) := by
        rintro rfl
        have hsome := isSome_nearestGridPoint? tie hpos h
        rw [hnone] at hsome
        cases hsome
      push_cast at hstart
      omega

/-- A point that rounds to a rank is on no coarser grid than the decimal that is written for it. -/
theorem exponent_le_shortest (tie : Tie) (hpos : 0 < rank)
    (h : gridPointRoundsTo rank exponent c = true) : exponent ≤ (shortest tie rank).exponent :=
  exponent_le_shortestFrom tie hpos h (exponent_le_coarsestGrid hpos h)

end Binary64

end ReleaseGate
