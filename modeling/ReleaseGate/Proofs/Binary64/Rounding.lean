import Mathlib.Order.Monotone.Basic
import Mathlib.Tactic.Ring
import ReleaseGate.Binary64.Arithmetic

/-!
# Rounding to the nearest rank

The rank of a magnitude is told by midpoints: a magnitude is above a rank's own one as soon as it is
past the midpoint to the next rank, and on the midpoint itself if the next rank is the even one of
the two.

* `midpoint`: twice the midpoint between a rank's magnitude and the next one.
* `nearestEven_le`, `le_nearestEven`: the whole number nearest to a quotient, by its neighbours.
* `lt_rankOf_iff`: which magnitudes round to a higher rank than a given one.
* `rankOf_eq`: the magnitudes between the midpoints on both sides of a rank round to it.
-/

namespace ReleaseGate

namespace Binary64

theorem quanta_strictMono : StrictMono quanta := strictMono_nat_of_lt_succ quanta_lt_succ

/-- Twice the midpoint between the magnitudes of a rank and of the next one, in quanta. -/
def midpoint (rank : Nat) : Nat := quanta rank + quanta (rank + 1)

theorem midpoint_strictMono : StrictMono midpoint := fun _ _ h =>
  Nat.add_lt_add (quanta_strictMono h) (quanta_strictMono (Nat.succ_lt_succ h))

/-- The magnitude of a rank is past the midpoint below. -/
theorem midpoint_pred_lt {rank : Nat} (hpos : 0 < rank) :
    midpoint (rank - 1) < 2 * quanta rank := by
  have := quanta_strictMono (Nat.sub_one_lt_of_lt hpos)
  rw [midpoint, Nat.sub_add_cancel hpos]
  omega

/-- The magnitude of a rank is before the midpoint above. -/
theorem quanta_lt_midpoint (rank : Nat) : 2 * quanta rank < midpoint rank := by
  have := quanta_lt_succ rank
  unfold midpoint
  omega

/-! ## The nearest whole number -/

section NearestEven

variable (n : Nat) {d : Nat}

theorem div_le_nearestEven (d : Nat) : n / d ≤ nearestEven n d := by
  unfold nearestEven
  dsimp only
  split
  · exact Nat.le_refl _
  · split <;> omega

theorem nearestEven_le_div_succ (d : Nat) : nearestEven n d ≤ n / d + 1 := by
  unfold nearestEven
  dsimp only
  split
  · omega
  · split <;> omega

/-- A quotient is at most half above its nearest whole number, and then that is even. -/
theorem le_nearestEven (hd : 0 < d) : 2 * n < (2 * nearestEven n d + 1) * d ∨
    2 * n = (2 * nearestEven n d + 1) * d ∧ nearestEven n d % 2 = 0 := by
  have hdiv := Nat.div_add_mod n d
  have hmod := Nat.mod_lt n hd
  unfold nearestEven
  dsimp only
  generalize n / d = q at hdiv
  generalize n % d = r at hdiv hmod
  subst hdiv
  have hq : (2 * q + 1) * d = 2 * (d * q) + d := by ring
  have hq' : (2 * (q + 1) + 1) * d = 2 * (d * q) + 3 * d := by ring
  split
  · omega
  · split
    · omega
    · rcases Nat.mod_two_eq_zero_or_one q with heven | hodd
      · simp only [heven, Nat.add_zero, and_true]
        omega
      · simp only [hodd]
        omega

/-- A quotient is at most half below its nearest whole number, and then that is even. -/
theorem nearestEven_le (hd : 0 < d) : 2 * nearestEven n d * d < 2 * n + d ∨
    2 * nearestEven n d * d = 2 * n + d ∧ nearestEven n d % 2 = 0 := by
  have hdiv := Nat.div_add_mod n d
  unfold nearestEven
  dsimp only
  generalize n / d = q at hdiv
  generalize n % d = r at hdiv
  subst hdiv
  have hq : 2 * q * d = 2 * (d * q) := by ring
  have hq' : 2 * (q + 1) * d = 2 * (d * q) + 2 * d := by ring
  split
  · omega
  · split
    · omega
    · rcases Nat.mod_two_eq_zero_or_one q with heven | hodd
      · simp only [heven, Nat.add_zero, and_true]
        omega
      · simp only [hodd]
        omega

end NearestEven

/-! ## The nearest rank -/

theorem binade_eq : binade = 2 ^ 52 := by decide

/-- The magnitude of a rank in steps of its binade. The last step is the first one of the next
binade. -/
theorem quanta_steps {shift m : Nat} (hm : m ≤ 2 * binade) (hbinade : shift = 0 ∨ binade ≤ m) :
    quanta (shift * binade + m) = m * 2 ^ shift := by
  have hpos := binade_pos
  rcases Nat.lt_or_eq_of_le hm with hlt | rfl
  · rcases hbinade with rfl | hle
    · rw [Nat.zero_mul, Nat.zero_add, quanta_of_lt hlt, Nat.pow_zero, Nat.mul_one]
    · have hrank : shift * binade + m = (shift + 1) * binade + (m - binade) := by
        rw [Nat.add_mul]
        omega
      rw [hrank, quanta_binade (Nat.le_add_left 1 shift) (by omega), Nat.add_sub_cancel,
        Nat.add_sub_cancel' hle]
      rfl
  · have hrank : shift * binade + 2 * binade = (shift + 2) * binade + 0 := by ring
    rw [hrank, quanta_binade (by omega) hpos]
    show (binade + 0) * 2 ^ (shift + 1) = 2 * binade * 2 ^ shift
    ring

theorem mod_two_of_steps (shift m : Nat) : (shift * binade + m) % 2 = m % 2 := by
  rw [binade_eq, show shift * 2 ^ 52 + m = m + 2 * (shift * 2 ^ 51) by ring,
    Nat.add_mul_mod_self_left]

/-- A magnitude `n / d` in steps of its binade: `m` is the nearest whole number of steps of
`2 ^ shift` quanta, and beyond the first two binades there are enough of them to fill a binade. -/
structure Steps (n d shift m : Nat) : Prop where
  below : 2 * m * (d * 2 ^ shift) < 2 * n + d * 2 ^ shift ∨
    2 * m * (d * 2 ^ shift) = 2 * n + d * 2 ^ shift ∧ m % 2 = 0
  above : 2 * n < (2 * m + 1) * (d * 2 ^ shift) ∨
    2 * n = (2 * m + 1) * (d * 2 ^ shift) ∧ m % 2 = 0
  le : m ≤ 2 * binade
  full : shift = 0 ∨ binade ≤ m ∧ binade * (d * 2 ^ shift) ≤ n

theorem exists_steps (n : Nat) {d : Nat} (hd : 0 < d) : ∃ shift m, Steps n d shift m ∧
    rankOf n d = min topRank (shift * binade + m) := by
  have hstep : ∀ shift, 0 < d * 2 ^ shift := fun shift => Nat.mul_pos hd (Nat.two_pow_pos shift)
  have hlower := div_le_nearestEven n (d * 2 ^ ((n / d).log2 - 52))
  have hupper := nearestEven_le_div_succ n (d * 2 ^ ((n / d).log2 - 52))
  refine ⟨(n / d).log2 - 52, _, ⟨nearestEven_le n (hstep _), le_nearestEven n (hstep _), ?_, ?_⟩,
    rfl⟩
  · -- The whole part has no more than 53 bits once it is scaled down.
    have hquotient : n / (d * 2 ^ ((n / d).log2 - 52)) < 2 * binade := by
      rw [← Nat.div_div_eq_div_mul, Nat.div_lt_iff_lt_mul (Nat.two_pow_pos _), binade_eq,
        ← Nat.pow_succ', ← Nat.pow_add]
      by_cases hzero : n / d = 0
      · rw [hzero]
        exact Nat.two_pow_pos _
      · refine (Nat.lt_log2_self (n := n / d)).trans_le (Nat.pow_le_pow_right (by decide) ?_)
        omega
    omega
  · by_cases hsmall : (n / d).log2 ≤ 52
    · exact .inl (Nat.sub_eq_zero_of_le hsmall)
    · have hzero : n / d ≠ 0 := by
        intro h
        rw [h] at hsmall
        exact hsmall (by decide)
      have hfull : binade ≤ n / (d * 2 ^ ((n / d).log2 - 52)) := by
        rw [← Nat.div_div_eq_div_mul, Nat.le_div_iff_mul_le (Nat.two_pow_pos _), binade_eq,
          ← Nat.pow_add]
        refine le_trans (Nat.pow_le_pow_right (by decide) ?_) (Nat.log2_self_le hzero)
        omega
      exact .inr ⟨hfull.trans hlower, (Nat.le_div_iff_mul_le (hstep _)).mp hfull⟩

namespace Steps

variable {n d shift m : Nat}

/-- A magnitude is past the midpoint below the rank that it rounds to. -/
theorem midpoint_lt (h : Steps n d shift m) (hd : 0 < d) (hpos : 0 < shift * binade + m) :
    midpoint (shift * binade + m - 1) * d < 2 * n ∨
      midpoint (shift * binade + m - 1) * d = 2 * n ∧ (shift * binade + m) % 2 = 0 := by
  have hquanta : quanta (shift * binade + m) = m * 2 ^ shift :=
    quanta_steps h.le (h.full.imp_right And.left)
  have hsucc : shift * binade + m - 1 + 1 = shift * binade + m := Nat.sub_add_cancel hpos
  rw [midpoint, hsucc, hquanta, mod_two_of_steps]
  by_cases hfirst : shift = 0 ∨ binade < m
  · -- The rank below is one step below.
    have hm : 0 < m := by
      rcases hfirst with rfl | hlt
      · omega
      · omega
    have hprev : quanta (shift * binade + m - 1) = (m - 1) * 2 ^ shift := by
      rw [Nat.add_sub_assoc hm, quanta_steps (by have := h.le; omega) (by omega)]
    obtain ⟨k, rfl⟩ : ∃ k, m = k + 1 := ⟨m - 1, by omega⟩
    have hbelow := h.below
    have hmid : (k * 2 ^ shift + (k + 1) * 2 ^ shift) * d + d * 2 ^ shift =
        2 * (k + 1) * (d * 2 ^ shift) := by ring
    rw [hprev, Nat.add_sub_cancel]
    omega
  · -- The rank below is in the binade below, where steps are shorter.
    obtain ⟨hshift, hle⟩ := not_or.mp hfirst
    obtain ⟨hfull, hn⟩ := h.full.resolve_left hshift
    have hm : m = binade := Nat.le_antisymm (Nat.le_of_not_lt hle) hfull
    have hlt : quanta (shift * binade + m - 1) < m * 2 ^ shift := by
      rw [← hquanta]
      exact quanta_strictMono (by omega)
    left
    calc (quanta (shift * binade + m - 1) + m * 2 ^ shift) * d
        < (m * 2 ^ shift + m * 2 ^ shift) * d :=
          Nat.mul_lt_mul_of_pos_right (Nat.add_lt_add_right hlt _) hd
      _ = 2 * (binade * (d * 2 ^ shift)) := by rw [hm]; ring
      _ ≤ 2 * n := Nat.mul_le_mul_left 2 hn

/-- A magnitude is not past the midpoint above the rank that it rounds to. -/
theorem lt_midpoint (h : Steps n d shift m) (hd : 0 < d) :
    2 * n < midpoint (shift * binade + m) * d ∨
      2 * n = midpoint (shift * binade + m) * d ∧ (shift * binade + m) % 2 = 0 := by
  have hquanta : quanta (shift * binade + m) = m * 2 ^ shift :=
    quanta_steps h.le (h.full.imp_right And.left)
  rw [midpoint, hquanta, mod_two_of_steps]
  have habove := h.above
  rcases Nat.lt_or_eq_of_le h.le with hlt | hlast
  · have hnext : quanta (shift * binade + m + 1) = (m + 1) * 2 ^ shift := by
      rw [Nat.add_assoc, quanta_steps hlt (h.full.imp_right fun hfull => by omega)]
    have hmid : (m * 2 ^ shift + (m + 1) * 2 ^ shift) * d = (2 * m + 1) * (d * 2 ^ shift) := by
      ring
    rw [hnext, hmid]
    exact habove
  · -- The next rank is two steps above, because it is in the next binade.
    have hnext : quanta (shift * binade + m + 1) = (m + 2) * 2 ^ shift := by
      have hrank : shift * binade + m + 1 = (shift + 2) * binade + 1 := by
        rw [hlast]
        ring
      rw [hrank, quanta_binade (by omega) (by decide), hlast]
      show (binade + 1) * 2 ^ (shift + 1) = (2 * binade + 2) * 2 ^ shift
      ring
    have hstride : 0 < d * 2 ^ shift := Nat.mul_pos hd (Nat.two_pow_pos shift)
    have hmid : (m * 2 ^ shift + (m + 2) * 2 ^ shift) * d =
        (2 * m + 1) * (d * 2 ^ shift) + d * 2 ^ shift := by ring
    rw [hnext, hmid]
    omega

end Steps

section RankOf

variable {n d r : Nat}

/-- A magnitude rounds to a rank above `r` if it is past the midpoint above `r`, or on it and the
rank above is the even one. -/
theorem lt_rankOf_iff (hd : 0 < d) (hr : r < topRank) : r < rankOf n d ↔
    midpoint r * d < 2 * n ∨ midpoint r * d = 2 * n ∧ r % 2 = 1 := by
  obtain ⟨shift, m, hsteps, hrank⟩ := exists_steps n hd
  have hmono : ∀ {a b}, a < b → midpoint a * d < midpoint b * d := fun h =>
    Nat.mul_lt_mul_of_pos_right (midpoint_strictMono h) hd
  rw [hrank, Nat.lt_min, and_iff_right hr]
  constructor
  · intro hlt
    have hpast := hsteps.midpoint_lt hd (Nat.zero_lt_of_lt hlt)
    rcases Nat.lt_or_eq_of_le (Nat.le_sub_one_of_lt hlt) with hbelow | rfl
    · have := hmono hbelow
      omega
    · omega
  · intro hpast
    by_contra hge
    have hbefore := hsteps.lt_midpoint hd
    rcases Nat.lt_or_eq_of_le (Nat.le_of_not_lt hge) with habove | heq
    · have := hmono habove
      omega
    · rw [heq] at hbefore
      omega

/-- The magnitudes between the midpoints on both sides of a rank round to it, those on a midpoint
only if the rank is even. -/
theorem rankOf_eq (hd : 0 < d) (hr : r < topRank)
    (hlow : midpoint (r - 1) * d < 2 * n ∨ midpoint (r - 1) * d = 2 * n ∧ r % 2 = 0)
    (hhigh : 2 * n < midpoint r * d ∨ 2 * n = midpoint r * d ∧ r % 2 = 0) : rankOf n d = r := by
  have hle : ¬ r < rankOf n d := by
    rw [lt_rankOf_iff hd hr]
    omega
  rcases Nat.eq_zero_or_pos r with rfl | hpos
  · omega
  · have hlt : r - 1 < rankOf n d := by
      rw [lt_rankOf_iff hd (by omega)]
      omega
    omega

end RankOf

end Binary64

end ReleaseGate
