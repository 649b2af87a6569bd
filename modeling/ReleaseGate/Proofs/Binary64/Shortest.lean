import ReleaseGate.Binary64.Shortest
import ReleaseGate.Proofs.Binary64.Rounding

/-!
# The fewest digits read back

The point of a decimal grid that is chosen for a rank lies between the midpoints on both sides of
it, and so the numeral of that point denotes the number again. Moving to a finer grid does not
change the point.

* `gridPointRoundsTo_shortest`: the decimal that is written rounds to the rank.
* `gridPointRoundsTo_scale`: a point with trailing zeros is the same point.
* `toBinary64_of_roundsTo`: a numeral whose point rounds to a rank denotes the number of that rank.
-/

namespace ReleaseGate

namespace Binary64

/-- A number with a rank between zero and infinity. -/
def magnitudeOf (negative : Bool) {rank : Nat} (h : rank < topRank) : Binary64 :=
  number negative ⟨rank, Nat.lt_succ_of_lt h⟩

section GridPoint

variable {rank c : Nat} {exponent : Int}

/-- A point rounds to a rank if it is between the midpoints on both sides, ends included when the
rank is even. -/
theorem gridPointRoundsTo_iff (hpos : 0 < rank) : gridPointRoundsTo rank exponent c = true ↔
    (midpoint (rank - 1) * gridDivisor exponent < c * gridStep exponent ∨
      midpoint (rank - 1) * gridDivisor exponent = c * gridStep exponent ∧ rank % 2 = 0) ∧
    (c * gridStep exponent < midpoint rank * gridDivisor exponent ∨
      c * gridStep exponent = midpoint rank * gridDivisor exponent ∧ rank % 2 = 0) := by
  have hsucc : rank - 1 + 1 = rank := Nat.sub_add_cancel hpos
  simp only [gridPointRoundsTo, midpoint, hsucc]
  generalize c * gridStep exponent = x
  generalize (quanta (rank - 1) + quanta rank) * gridDivisor exponent = low
  generalize (quanta rank + quanta (rank + 1)) * gridDivisor exponent = high
  split
  · simp only [Bool.and_eq_true, decide_eq_true_eq]
    omega
  · simp only [Bool.and_eq_true, decide_eq_true_eq]
    omega

/-- The step of a grid, as a power of two and a power of ten. -/
theorem gridStep_eq (exponent : Int) :
    gridStep exponent = 2 ^ (finest + 1) * 10 ^ exponent.toNat := by
  unfold gridStep unit
  -- With its value in sight the power of two would be computed.
  generalize finest = n
  simp only [Nat.pow_eq, Nat.pow_succ']

theorem gridDivisor_pos (exponent : Int) : 0 < gridDivisor exponent :=
  Nat.pow_pos (by decide)

theorem midpoint_pos (rank : Nat) : 0 < midpoint rank := by
  have := quanta_lt_succ rank
  unfold midpoint
  omega

/-- A point that rounds to a rank is past the midpoint below, or on it. -/
theorem midpoint_le_of_roundsTo (hpos : 0 < rank) (h : gridPointRoundsTo rank exponent c = true) :
    midpoint (rank - 1) * gridDivisor exponent ≤ c * gridStep exponent := by
  have := ((gridPointRoundsTo_iff hpos).mp h).1
  omega

/-- A point that rounds to a rank is before the midpoint above, or on it. -/
theorem le_midpoint_of_roundsTo (hpos : 0 < rank) (h : gridPointRoundsTo rank exponent c = true) :
    c * gridStep exponent ≤ midpoint rank * gridDivisor exponent := by
  have := ((gridPointRoundsTo_iff hpos).mp h).2
  omega

/-- Only zero has the digit zero. -/
theorem ne_zero_of_roundsTo (hpos : 0 < rank) (h : gridPointRoundsTo rank exponent c = true) :
    c ≠ 0 := by
  rintro rfl
  have hle := midpoint_le_of_roundsTo hpos h
  have hlow := Nat.mul_pos (midpoint_pos (rank - 1)) (gridDivisor_pos exponent)
  omega

/-- A point of a whole grid is a point of every finer one. -/
theorem gridPointRoundsTo_scale (hpos : 0 < rank) (exponent places : Nat) :
    gridPointRoundsTo rank (-(places : Int)) (c * 10 ^ (exponent + places)) =
      gridPointRoundsTo rank exponent c := by
  have hcoarse : gridDivisor exponent = 1 := by simp [gridDivisor]
  have hfine : gridDivisor (-(places : Int)) = 10 ^ places := by simp [gridDivisor]
  have hstep : c * 10 ^ (exponent + places) * gridStep (-(places : Int)) =
      c * gridStep exponent * 10 ^ places := by
    simp [gridStep, Nat.pow_add]
    ring
  have hplaces : 0 < 10 ^ places := Nat.pow_pos (by decide)
  rw [Bool.eq_iff_iff, gridPointRoundsTo_iff hpos, gridPointRoundsTo_iff hpos, hcoarse, hfine,
    hstep, Nat.mul_one, Nat.mul_one]
  simp only [Nat.mul_lt_mul_right hplaces, Nat.mul_left_inj hplaces.ne']

/-- The magnitude itself is a point of the finest grid. -/
theorem gridPointRoundsTo_finest (hpos : 0 < rank) :
    gridPointRoundsTo rank finestGrid (quanta rank * Nat.pow 5 finest) = true := by
  have hdivisor : gridDivisor finestGrid = 10 ^ finest := by simp [gridDivisor, finestGrid]
  have hstep : quanta rank * Nat.pow 5 finest * gridStep finestGrid =
      2 * quanta rank * 10 ^ finest := by
    have hten : ∀ n, 10 ^ n = 5 ^ n * 2 ^ n := Nat.mul_pow 5 2
    have htoNat : finestGrid.toNat = 0 := by simp [finestGrid]
    rw [gridStep_eq, htoNat, hten finest, Nat.pow_eq, Nat.pow_succ']
    ring
  have hten : 0 < 10 ^ finest := Nat.pow_pos (by decide)
  rw [gridPointRoundsTo_iff hpos, hdivisor, hstep]
  exact ⟨.inl (Nat.mul_lt_mul_of_pos_right (midpoint_pred_lt hpos) hten),
    .inl (Nat.mul_lt_mul_of_pos_right (quanta_lt_midpoint rank) hten)⟩

end GridPoint

/-! ## The decimal that is written -/

section Shortest

variable (tie : Tie) {rank : Nat}

theorem gridPointRoundsTo_nearest {exponent : Int} {c : Nat}
    (h : nearestGridPoint? tie rank exponent = some c) :
    gridPointRoundsTo rank exponent c = true := by
  unfold nearestGridPoint? at h
  extract_lets value below rest preferAbove first second at h
  split at h
  · obtain rfl := Option.some.inj h
    assumption
  · split at h
    · obtain rfl := Option.some.inj h
      assumption
    · cases h

theorem gridPointRoundsTo_shortestFrom (hpos : 0 < rank) (steps : Nat) :
    gridPointRoundsTo rank (shortestFrom tie rank steps).exponent
      (shortestFrom tie rank steps).digits = true := by
  induction steps with
  | zero => exact gridPointRoundsTo_finest hpos
  | succ steps ih =>
    unfold shortestFrom
    dsimp only
    split
    · next c hc => exact gridPointRoundsTo_nearest tie hc
    · exact ih

/-- The decimal that is written for a rank rounds to it. -/
theorem gridPointRoundsTo_shortest (hpos : 0 < rank) :
    gridPointRoundsTo rank (shortest tie rank).exponent (shortest tie rank).digits = true :=
  gridPointRoundsTo_shortestFrom tie hpos _

end Shortest

/-! ## What its numeral denotes -/

section Numeral

variable {rank c : Nat} {exponent : Int}

/-- Two to three times a power is less than ten to that power. -/
theorem two_pow_le_ten_pow (n : Nat) : 2 ^ (3 * n) ≤ 10 ^ n := by
  rw [Nat.pow_mul]
  exact Nat.pow_le_pow_left (by decide) n

/-- The first magnitude of a binade is a power of two. -/
theorem quanta_mul_binade {b : Nat} (hb : 1 ≤ b) : quanta (b * binade) = 2 ^ (52 + (b - 1)) := by
  rw [← Nat.add_zero (b * binade), quanta_binade hb binade_pos, Nat.pow_add, ← binade_eq]
  rfl

theorem quanta_topRank : quanta topRank = 2 ^ (finest + 1024) := by
  have htop : topRank = 2047 * binade := by decide
  have hexponent : finest + 1024 = 52 + (2047 - 1) := by decide
  rw [htop, hexponent]
  exact quanta_mul_binade (by decide)

theorem midpoint_lt_of_lt_topRank (h : rank < topRank) : midpoint rank < 2 ^ (finest + 1025) := by
  have hlt : quanta rank < quanta topRank := quanta_strictMono h
  have hle : quanta (rank + 1) ≤ quanta topRank := quanta_strictMono.monotone h
  have hdouble : 2 ^ (finest + 1025) = 2 * quanta topRank := by
    rw [quanta_topRank, ← Nat.pow_succ']
  unfold midpoint
  omega

/-- A point that rounds to a finite rank has no larger power of ten than a numeral may have. -/
theorem le_largestPower_of_roundsTo (hpos : 0 < rank) (hrank : rank < topRank)
    (h : gridPointRoundsTo rank exponent c = true) : exponent.toNat ≤ Numeral.largestPower := by
  by_cases hexponent : 0 ≤ exponent
  · have hdivisor : gridDivisor exponent = 1 := by
      have htoNat : (-exponent).toNat = 0 := by omega
      rw [gridDivisor, htoNat, Nat.pow_eq, Nat.pow_zero]
    have hc := Nat.pos_of_ne_zero (ne_zero_of_roundsTo hpos h)
    have hbound : 2 ^ (finest + 1 + 3 * exponent.toNat) < 2 ^ (finest + 1025) := calc
      2 ^ (finest + 1 + 3 * exponent.toNat) ≤ 2 ^ (finest + 1) * 10 ^ exponent.toNat := by
        rw [Nat.pow_add]
        exact Nat.mul_le_mul_left _ (two_pow_le_ten_pow _)
      _ = 1 * gridStep exponent := by rw [gridStep_eq, Nat.one_mul]
      _ ≤ c * gridStep exponent := Nat.mul_le_mul_right _ hc
      _ ≤ midpoint rank * gridDivisor exponent := le_midpoint_of_roundsTo hpos h
      _ = midpoint rank := by rw [hdivisor, Nat.mul_one]
      _ < 2 ^ (finest + 1025) := midpoint_lt_of_lt_topRank hrank
    have hlt := (Nat.pow_lt_pow_iff_right (by decide)).mp hbound
    unfold Numeral.largestPower
    omega
  · omega

/-- A point that rounds to a rank above zero is not so small that its numeral is cut off. -/
theorem places_le_of_roundsTo (hpos : 0 < rank) (h : gridPointRoundsTo rank exponent c = true)
    (hexponent : exponent < 0) : 3 * (-exponent).toNat ≤ c.log2 + finest + 2 := by
  have htoNat : exponent.toNat = 0 := by omega
  have hle := midpoint_le_of_roundsTo hpos h
  have hmid := midpoint_pos (rank - 1)
  have hpow : 2 ^ (3 * (-exponent).toNat) < 2 ^ (c.log2 + finest + 2) := calc
    2 ^ (3 * (-exponent).toNat) ≤ 10 ^ (-exponent).toNat := two_pow_le_ten_pow _
    _ ≤ midpoint (rank - 1) * gridDivisor exponent := Nat.le_mul_of_pos_left _ hmid
    _ ≤ c * gridStep exponent := hle
    _ = c * 2 ^ (finest + 1) := by rw [gridStep_eq, htoNat, Nat.pow_zero, Nat.mul_one]
    _ < 2 ^ (c.log2 + 1) * 2 ^ (finest + 1) :=
      Nat.mul_lt_mul_of_pos_right Nat.lt_log2_self (Nat.two_pow_pos _)
    _ = 2 ^ (c.log2 + finest + 2) := by
      rw [← Nat.pow_add]
      ring
  exact Nat.le_of_lt ((Nat.pow_lt_pow_iff_right (by decide)).mp hpow)

/-- The point of a grid as a quotient of quanta rounds as the grid says. -/
theorem rankOf_of_roundsTo (hpos : 0 < rank) (hrank : rank < topRank)
    (h : gridPointRoundsTo rank exponent c = true) :
    rankOf (c * Nat.pow 10 exponent.toNat * unit) (gridDivisor exponent) = rank := by
  obtain ⟨hlow, hhigh⟩ := (gridPointRoundsTo_iff hpos).mp h
  have hx : c * gridStep exponent = 2 * (c * Nat.pow 10 exponent.toNat * unit) := by
    unfold gridStep
    ring
  rw [hx] at hlow hhigh
  exact rankOf_eq (gridDivisor_pos exponent) hrank hlow hhigh

theorem ofRatio_of_rankOf (negative : Bool) {n d : Nat} (hrank : rank < topRank)
    (h : rankOf n d = rank) : ofRatio negative n d = magnitudeOf negative hrank := by
  subst h
  rfl

/-- A numeral whose point rounds to a rank denotes the number of that rank. -/
theorem toBinary64_of_roundsTo (negative : Bool) (hpos : 0 < rank) (hrank : rank < topRank)
    (h : gridPointRoundsTo rank exponent c = true) :
    Numeral.toBinary64 ⟨negative, c, exponent⟩ = magnitudeOf negative hrank := by
  have hround := rankOf_of_roundsTo hpos hrank h
  unfold Numeral.toBinary64
  dsimp only
  rw [if_neg (ne_zero_of_roundsTo hpos h)]
  split
  · next hexponent =>
    have hdivisor : gridDivisor exponent = 1 := by
      have htoNat : (-exponent).toNat = 0 := by omega
      rw [gridDivisor, htoNat, Nat.pow_eq, Nat.pow_zero]
    rw [if_neg (Nat.not_lt.mpr (le_largestPower_of_roundsTo hpos hrank h))]
    exact ofRatio_of_rankOf negative hrank (hdivisor ▸ hround)
  · next hexponent =>
    have htoNat : exponent.toNat = 0 := by omega
    rw [if_neg (Nat.not_lt.mpr (places_le_of_roundsTo hpos h (by omega)))]
    refine ofRatio_of_rankOf negative hrank ?_
    rw [htoNat] at hround
    simpa [gridDivisor] using hround

end Numeral

end Binary64

end ReleaseGate
