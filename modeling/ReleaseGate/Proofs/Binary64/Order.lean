import ReleaseGate.Proofs.Binary64.Rounding

/-!
# The order of numbers and one rounding

Rounding keeps the order of magnitudes and fixes the magnitudes that numbers have. So every
operation on numbers that are not below zero keeps their order, and a bound that is a number itself
survives any operation.

* `At`: a number that is not below zero, by its rank; both zeros are at rank zero.
* `rankOf_mono`, `rankOf_quanta`: rounding keeps the order, and fixes what needs no rounding.
* `At.add`, `At.mul`, `At.div`, `At.roundWhole`: an operation is its exact result, rounded once.
* `quanta_wholeRank`: whole numbers up to `2^53` need no rounding.
* `InOrder`: numbers in order below a whole number, and the operations that keep them so.
* `isNegative`, `At.eq_of_isNegative`: signs, which tell the two zeros apart.
-/

namespace ReleaseGate

namespace Binary64

/-! ## Comparisons -/

section Comparisons

variable {x y z : Binary64}

/-- A comparison holds of two numbers, and of nothing that is not a number. -/
theorem compareBy_eq_true {rel : Int → Int → Bool} : compareBy rel x y = true ↔
    ∃ a b, x.signedRank? = some a ∧ y.signedRank? = some b ∧ rel a b = true := by
  unfold compareBy
  cases x.signedRank? with
  | none => simp
  | some a =>
    cases y.signedRank? with
    | none => simp
    | some b => simp

theorem lt_irrefl (x : Binary64) : x.lt x = false := by
  refine Bool.eq_false_iff.mpr fun h => ?_
  obtain ⟨a, b, ha, hb, hab⟩ := compareBy_eq_true.mp h
  obtain rfl := Option.some.inj (ha.symm.trans hb)
  exact absurd (of_decide_eq_true hab) (Int.lt_irrefl a)

theorem lt_of_le_of_lt (hxy : x.le y = true) (hyz : y.lt z = true) : x.lt z = true := by
  obtain ⟨a, b, ha, hb, hab⟩ := compareBy_eq_true.mp hxy
  obtain ⟨b', c, hb', hc, hbc⟩ := compareBy_eq_true.mp hyz
  obtain rfl := Option.some.inj (hb.symm.trans hb')
  refine compareBy_eq_true.mpr ⟨a, c, ha, hc, ?_⟩
  exact decide_eq_true ((of_decide_eq_true hab).trans_lt (of_decide_eq_true hbc))

theorem lt_of_lt_of_le (hxy : x.lt y = true) (hyz : y.le z = true) : x.lt z = true := by
  obtain ⟨a, b, ha, hb, hab⟩ := compareBy_eq_true.mp hxy
  obtain ⟨b', c, hb', hc, hbc⟩ := compareBy_eq_true.mp hyz
  obtain rfl := Option.some.inj (hb.symm.trans hb')
  refine compareBy_eq_true.mpr ⟨a, c, ha, hc, ?_⟩
  exact decide_eq_true ((of_decide_eq_true hab).trans_le (of_decide_eq_true hbc))

theorem le_of_lt (h : x.lt y = true) : x.le y = true := by
  obtain ⟨a, b, ha, hb, hab⟩ := compareBy_eq_true.mp h
  exact compareBy_eq_true.mpr ⟨a, b, ha, hb, decide_eq_true (of_decide_eq_true hab).le⟩

/-- Of two numbers either the first is at most the second, or the second is less. -/
theorem le_iff_not_lt (hx : x ≠ nan) (hy : y ≠ nan) : x.le y = true ↔ ¬y.lt x = true := by
  have hrank : ∀ {z : Binary64}, z ≠ nan → ∃ a, z.signedRank? = some a := by
    intro z hz
    cases z with
    | nan => exact absurd rfl hz
    | number negative rank => exact ⟨_, rfl⟩
  obtain ⟨a, ha⟩ := hrank hx
  obtain ⟨b, hb⟩ := hrank hy
  simp [le, lt, compareBy, ha, hb]

theorem le_trans (hxy : x.le y = true) (hyz : y.le z = true) : x.le z = true := by
  obtain ⟨a, b, ha, hb, hab⟩ := compareBy_eq_true.mp hxy
  obtain ⟨b', c, hb', hc, hbc⟩ := compareBy_eq_true.mp hyz
  obtain rfl := Option.some.inj (hb.symm.trans hb')
  refine compareBy_eq_true.mpr ⟨a, c, ha, hc, ?_⟩
  exact decide_eq_true ((of_decide_eq_true hab).trans (of_decide_eq_true hbc))

end Comparisons

/-! ## Numbers that are not below zero -/

/-- A number that is not below zero stands at the rank of its magnitude. -/
def At (x : Binary64) (r : Nat) : Prop := x.signedRank? = some (r : Int)

section At

variable {x y : Binary64} {r s : Nat}

/-- Such a number has no minus sign, unless it is zero. -/
theorem At.exists_number (h : x.At r) :
    ∃ negative, ∃ hr : r < topRank + 1, x = number negative ⟨r, hr⟩ ∧
      (negative = true → r = 0) := by
  unfold At at h
  match x with
  | .nan => cases h
  | .number negative ⟨rank, hrank⟩ =>
    simp only [signedRank?, Option.some.injEq] at h
    cases negative with
    | false =>
      simp only [Bool.false_eq_true, if_false, Int.natCast_inj] at h
      subst h
      exact ⟨false, hrank, rfl, nofun⟩
    | true =>
      simp only [if_true] at h
      obtain ⟨rfl, rfl⟩ : rank = 0 ∧ r = 0 := by omega
      exact ⟨true, hrank, rfl, fun _ => rfl⟩

theorem At.le_topRank (h : x.At r) : r ≤ topRank := by
  obtain ⟨-, hr, -, -⟩ := h.exists_number
  omega

theorem At.unique (hr : x.At r) (hs : x.At s) : r = s := by
  unfold At at hr hs
  rw [hr] at hs
  exact Int.natCast_inj.mp (Option.some.inj hs)

theorem le_iff (hx : x.At r) (hy : y.At s) : x.le y = true ↔ r ≤ s := by
  unfold At at hx hy
  simp [le, compareBy, hx, hy]

theorem lt_iff (hx : x.At r) (hy : y.At s) : x.lt y = true ↔ r < s := by
  unfold At at hx hy
  simp [lt, compareBy, hx, hy]

theorem isFinite_iff (hx : x.At r) : x.isFinite = true ↔ r < topRank := by
  obtain ⟨negative, hr, rfl, -⟩ := hx.exists_number
  simp only [isFinite, bne_iff_ne, ne_eq]
  omega

/-- Above zero, the rank tells which number it is. -/
theorem At.eq_of_pos (hx : x.At r) (hy : y.At r) (hpos : 0 < r) : x = y := by
  obtain ⟨_, _, rfl, hnegative⟩ := hx.exists_number
  obtain ⟨_, _, rfl, hnegative'⟩ := hy.exists_number
  rw [Bool.eq_false_iff.mpr fun h => hpos.ne' (hnegative h),
    Bool.eq_false_iff.mpr fun h => hpos.ne' (hnegative' h)]

/-- What is at least a number that is not below zero is not below zero either. -/
theorem At.exists_of_le (hx : x.At r) (h : x.le y = true) : ∃ s, y.At s ∧ r ≤ s := by
  unfold At at hx
  cases hy : y.signedRank? with
  | none => simp [le, compareBy, hx, hy] at h
  | some b =>
    simp only [le, compareBy, hx, hy, decide_eq_true_eq] at h
    refine ⟨b.toNat, ?_, by omega⟩
    rw [At, hy, Int.toNat_of_nonneg (by omega)]

theorem at_zero (negative : Bool) : (signedZero negative).At 0 := by
  cases negative <;> rfl

theorem at_number {hr : r < topRank + 1} {negative : Bool} (h : negative = true → r = 0) :
    (number negative ⟨r, hr⟩).At r := by
  cases negative with
  | false => rfl
  | true =>
    obtain rfl := h rfl
    rfl

theorem At.toQuanta_eq (h : x.At r) : x.toQuanta = quanta r := by
  obtain ⟨negative, hr, rfl, hnegative⟩ := h.exists_number
  cases negative with
  | false => rfl
  | true =>
    obtain rfl := hnegative rfl
    rfl

end At

/-! ## Rounding and the order -/

theorem quanta_zero : quanta 0 = 0 := by decide

theorem quanta_pos {r : Nat} (h : 0 < r) : 0 < quanta r := by
  rw [← quanta_zero]
  exact quanta_strictMono h

section RankOf

variable {n d n' d' r : Nat}

theorem rankOf_le_topRank (n d : Nat) : rankOf n d ≤ topRank := Nat.min_le_left _ _

/-- Rounding keeps the order of quotients. -/
theorem rankOf_mono (hd : 0 < d) (hd' : 0 < d') (h : n * d' ≤ n' * d) :
    rankOf n d ≤ rankOf n' d' := by
  by_contra hlt
  have hlt : rankOf n' d' < rankOf n d := Nat.lt_of_not_le hlt
  have htop := hlt.trans_le (rankOf_le_topRank n d)
  have hge := (lt_rankOf_iff hd' htop).not.mp (Nat.lt_irrefl _)
  have hpast := (lt_rankOf_iff hd htop).mp hlt
  generalize rankOf n' d' = r at hge hpast
  -- The first quotient is past the midpoint that the second one, which is larger, is not past.
  have hscaled : midpoint r * d * d' ≤ 2 * n' * d := calc
    midpoint r * d * d' ≤ 2 * n * d' := Nat.mul_le_mul_right d' (by omega)
    _ = 2 * (n * d') := Nat.mul_assoc 2 n d'
    _ ≤ 2 * (n' * d) := Nat.mul_le_mul_left 2 h
    _ = 2 * n' * d := (Nat.mul_assoc 2 n' d).symm
  have hle : midpoint r * d' ≤ 2 * n' := by
    refine Nat.le_of_mul_le_mul_right ?_ hd
    rwa [Nat.mul_right_comm]
  have heq : midpoint r * d' = 2 * n' := by omega
  have heq' : midpoint r * d = 2 * n := by
    have hback : 2 * n * d' ≤ midpoint r * d * d' := calc
      2 * n * d' = 2 * (n * d') := Nat.mul_assoc 2 n d'
      _ ≤ 2 * (n' * d) := Nat.mul_le_mul_left 2 h
      _ = midpoint r * d * d' := by rw [← Nat.mul_assoc, ← heq, Nat.mul_right_comm]
    have := Nat.le_of_mul_le_mul_right hback hd'
    omega
  omega

/-- The magnitude of a rank rounds to that rank. -/
theorem rankOf_quanta (hd : 0 < d) (hr : r ≤ topRank) : rankOf (quanta r * d) d = r := by
  have hbefore : ∀ s, s < topRank → (s < rankOf (quanta r * d) d ↔ s < r) := by
    intro s hs
    rw [lt_rankOf_iff hd hs]
    have htwice : 2 * (quanta r * d) = 2 * quanta r * d := (Nat.mul_assoc 2 _ d).symm
    constructor
    · intro hpast
      by_contra hge
      have hmid : 2 * quanta r < midpoint s := by
        have hle := quanta_strictMono.monotone (Nat.le_of_not_lt hge)
        have hlt := quanta_lt_succ s
        unfold midpoint
        omega
      have := Nat.mul_lt_mul_of_pos_right hmid hd
      omega
    · intro hlt
      have hmid : midpoint s < 2 * quanta r := by
        have hle : quanta (s + 1) ≤ quanta r := quanta_strictMono.monotone hlt
        have hlt := quanta_lt_succ s
        unfold midpoint
        omega
      have := Nat.mul_lt_mul_of_pos_right hmid hd
      omega
  have htop := rankOf_le_topRank (quanta r * d) d
  rcases Nat.lt_trichotomy (rankOf (quanta r * d) d) r with hlt | heq | hgt
  · exact absurd ((hbefore _ (hlt.trans_le hr)).mpr hlt) (Nat.lt_irrefl _)
  · exact heq
  · exact absurd ((hbefore r (hgt.trans_le htop)).mp hgt) (Nat.lt_irrefl _)

/-- A quotient that is at most the magnitude of a rank rounds to that rank at most. -/
theorem rankOf_le (hd : 0 < d) (hr : r ≤ topRank) (h : n ≤ quanta r * d) : rankOf n d ≤ r := by
  rw [← rankOf_quanta hd hr]
  exact rankOf_mono hd hd (Nat.mul_le_mul_right d h)

/-- A quotient may be reduced. -/
theorem rankOf_mul_right (hd : 0 < d) {m : Nat} (hm : 0 < m) :
    rankOf (n * m) (d * m) = rankOf n d := by
  have hdm := Nat.mul_pos hd hm
  have hcross : n * m * d = n * (d * m) := by ring
  exact Nat.le_antisymm (rankOf_mono hdm hd hcross.le) (rankOf_mono hd hdm hcross.ge)

theorem rankOf_zero (hd : 0 < d) : rankOf 0 d = 0 :=
  Nat.le_zero.mp (rankOf_le hd (Nat.zero_le _) (Nat.zero_le _))

theorem at_ofRatio {negative : Bool} (hd : 0 < d) (h : negative = true → n = 0) :
    (ofRatio negative n d).At (rankOf n d) := by
  refine at_number fun hnegative => ?_
  rw [h hnegative, rankOf_zero hd]

end RankOf

/-! ## Operations -/

section Operations

variable {x y : Binary64} {r s : Nat}

theorem isInfinite_eq_false {negative : Bool} {hr : r < topRank + 1} (h : r < topRank) :
    (number negative ⟨r, hr⟩).isInfinite = false := by
  simp only [isInfinite, beq_eq_false_iff_ne]
  omega

theorem At.add (hx : x.At r) (hy : y.At s) (hr : r < topRank) (hs : s < topRank) :
    (x + y).At (rankOf (quanta r + quanta s) 1) := by
  have hqx := hx.toQuanta_eq
  have hqy := hy.toQuanta_eq
  obtain ⟨negative, _, rfl, -⟩ := hx.exists_number
  obtain ⟨negative', _, rfl, -⟩ := hy.exists_number
  show (Binary64.add _ _).At _
  simp only [Binary64.add, isInfinite_eq_false hr, isInfinite_eq_false hs, hqx, hqy,
    Bool.false_eq_true, if_false, ← Int.natCast_add, Int.natAbs_natCast]
  refine at_ofRatio Nat.one_pos fun hnegative => ?_
  split at hnegative
  · next hsum => exact Int.natCast_eq_zero.mp hsum
  · exact absurd (of_decide_eq_true hnegative) (Int.natCast_nonneg _).not_gt

theorem At.mul (hx : x.At r) (hy : y.At s) (hr : r < topRank) (hs : s < topRank) :
    (x * y).At (rankOf (quanta r * quanta s) unit) := by
  obtain ⟨negative, _, rfl, hnegative⟩ := hx.exists_number
  obtain ⟨negative', _, rfl, hnegative'⟩ := hy.exists_number
  show (Binary64.mul _ _).At _
  simp only [Binary64.mul, isInfinite_eq_false hr, isInfinite_eq_false hs, Bool.or_self,
    Bool.false_eq_true, if_false]
  refine at_ofRatio unit_pos fun hsign => ?_
  cases negative with
  | true => rw [hnegative rfl, quanta_zero, Nat.zero_mul]
  | false =>
    cases negative' with
    | true => rw [hnegative' rfl, quanta_zero, Nat.mul_zero]
    | false => cases hsign

theorem At.div (hx : x.At r) (hy : y.At s) (hr : r < topRank) (hpos : 0 < s) (hs : s < topRank) :
    (x / y).At (rankOf (quanta r * unit) (quanta s)) := by
  obtain ⟨negative, _, rfl, hnegative⟩ := hx.exists_number
  obtain ⟨negative', _, rfl, hnegative'⟩ := hy.exists_number
  show (Binary64.div _ _).At _
  simp only [Binary64.div, isInfinite_eq_false hr, isInfinite_eq_false hs, Bool.false_eq_true,
    if_false, hpos.ne']
  refine at_ofRatio (quanta_pos hpos) fun hsign => ?_
  cases negative with
  | true => rw [hnegative rfl, quanta_zero, Nat.zero_mul]
  | false =>
    cases negative' with
    | true => exact absurd (hnegative' rfl) hpos.ne'
    | false => cases hsign

/-- A finite number divided by infinity is zero. -/
theorem At.div_infinite (hx : x.At r) (hy : y.At topRank) (hr : r < topRank) : (x / y).At 0 := by
  obtain ⟨_, _, rfl, -⟩ := hx.exists_number
  obtain ⟨_, _, rfl, -⟩ := hy.exists_number
  show (Binary64.div _ _).At _
  have hinfinite : ∀ negative h, (number negative ⟨topRank, h⟩).isInfinite = true := by
    simp [isInfinite]
  simp only [Binary64.div, isInfinite_eq_false hr, hinfinite, Bool.false_eq_true, if_false, if_true]
  exact at_zero _

/-- The quanta of the whole number nearest to a magnitude, halves up. -/
def wholeQuanta (q : Nat) : Nat := (2 * q + unit) / (2 * unit) * unit

theorem wholeQuanta_mono {p q : Nat} (h : p ≤ q) : wholeQuanta p ≤ wholeQuanta q :=
  Nat.mul_le_mul_right unit (Nat.div_le_div_right (by omega))

theorem wholeQuanta_mul_unit (n : Nat) : wholeQuanta (n * unit) = n * unit := by
  have hsplit : 2 * (n * unit) + unit = unit + 2 * unit * n := by ring
  rw [wholeQuanta, hsplit, Nat.add_mul_div_left _ _ (Nat.mul_pos Nat.two_pos unit_pos),
    Nat.div_eq_of_lt (by have := unit_pos; omega), Nat.zero_add]

/-- Magnitudes with different nearest whole numbers have a half between them. -/
theorem exists_half_of_wholeQuanta_lt {p q : Nat} (h : wholeQuanta p < wholeQuanta q) :
    ∃ k, 2 * p < (2 * k + 1) * unit ∧ (2 * k + 1) * unit ≤ 2 * q := by
  have hunit : 0 < 2 * unit := Nat.mul_pos Nat.two_pos unit_pos
  have hlt := Nat.lt_of_mul_lt_mul_right h
  have hbelow := Nat.lt_mul_div_succ (2 * p + unit) hunit
  have habove := Nat.div_mul_le_self (2 * q + unit) (2 * unit)
  generalize (2 * p + unit) / (2 * unit) = k at hlt hbelow
  have hscaled := Nat.mul_le_mul_right (2 * unit) (Nat.succ_le_of_lt hlt)
  have hnext : (k + 1) * (2 * unit) = (2 * k + 1) * unit + unit := by ring
  rw [Nat.mul_comm (2 * unit), hnext] at hbelow
  rw [hnext] at hscaled
  exact ⟨k, by omega, by omega⟩

theorem At.roundWhole (hx : x.At r) (hr : r < topRank) :
    x.roundWhole.At (rankOf (wholeQuanta (quanta r)) 1) := by
  obtain ⟨negative, _, rfl, hnegative⟩ := hx.exists_number
  simp only [Binary64.roundWhole, isInfinite_eq_false hr, Bool.false_eq_true, if_false]
  refine at_ofRatio Nat.one_pos fun hsign => ?_
  rw [hnegative hsign, quanta_zero, Nat.mul_zero, Nat.zero_add,
    Nat.div_eq_of_lt (by have := unit_pos; omega), Nat.zero_mul]

end Operations

/-! ## Whole numbers -/

/-- The rank of a whole number. -/
def wholeRank (n : Nat) : Nat := rankOf (n * unit) 1

theorem at_ofNat (n : Nat) : (ofNat n).At (wholeRank n) := at_ofRatio Nat.one_pos nofun

theorem wholeRank_mono {m n : Nat} (h : m ≤ n) : wholeRank m ≤ wholeRank n :=
  rankOf_mono Nat.one_pos Nat.one_pos (Nat.mul_le_mul_right 1 (Nat.mul_le_mul_right unit h))

theorem wholeRank_zero : wholeRank 0 = 0 := by
  rw [wholeRank, Nat.zero_mul, rankOf_zero Nat.one_pos]

theorem at_nat_zero : (0 : Binary64).At 0 := wholeRank_zero ▸ at_ofNat 0

theorem at_one : (1 : Binary64).At (wholeRank 1) := at_ofNat 1

/-- Up to 53 bits, shifted any number of places, are the magnitude of a rank. -/
theorem exists_quanta_eq {m : Nat} (hm : m ≤ 2 * binade) (shift : Nat) :
    ∃ r ≤ (shift + 2) * binade, quanta r = m * 2 ^ shift := by
  induction shift generalizing m with
  | zero =>
    refine ⟨0 * binade + m, by omega, quanta_steps hm (.inl rfl)⟩
  | succ shift ih =>
    by_cases hfull : binade ≤ m
    · refine ⟨(shift + 1) * binade + m, ?_, quanta_steps hm (.inr hfull)⟩
      have : (shift + 1 + 2) * binade = (shift + 1) * binade + 2 * binade := by ring
      omega
    · obtain ⟨r, hr, hquanta⟩ := ih (m := 2 * m) (by omega)
      refine ⟨r, hr.trans (Nat.mul_le_mul_right binade (by omega)), ?_⟩
      rw [hquanta, Nat.pow_succ']
      ring

theorem unit_eq : unit = 2 ^ finest := by
  unfold unit
  generalize finest = n
  rfl

/-- Whole numbers up to `2^53` need no rounding. -/
theorem quanta_wholeRank {n : Nat} (h : n ≤ 2 ^ 53) : quanta (wholeRank n) = n * unit := by
  obtain ⟨r, hr, hquanta⟩ := exists_quanta_eq (h.trans_eq (by decide)) finest
  have htop : r ≤ topRank := hr.trans (by decide)
  have hrank := rankOf_quanta Nat.one_pos htop
  rw [Nat.mul_one, hquanta, ← unit_eq] at hrank
  rw [wholeRank, hrank, hquanta, unit_eq]

theorem quanta_le_of_le_wholeRank {r n : Nat} (hn : n ≤ 2 ^ 53) (h : r ≤ wholeRank n) :
    quanta r ≤ n * unit := by
  rw [← quanta_wholeRank hn]
  exact quanta_strictMono.monotone h

theorem wholeRank_lt_topRank {n : Nat} (h : n < 2 ^ 64) : wholeRank n < topRank := by
  have hbound : wholeRank (2 ^ 64) < topRank := by decide +kernel
  exact (wholeRank_mono h.le).trans_lt hbound

theorem wholeRank_pos {n : Nat} (h : 0 < n) : 0 < wholeRank n := by
  have hbound : 0 < wholeRank 1 := by decide +kernel
  exact hbound.trans_le (wholeRank_mono h)

/-- The whole number after `2^53` is half way to the next number, and rounds back. -/
theorem wholeRank_succ_largest : wholeRank (2 ^ 53 + 1) = wholeRank (2 ^ 53) := by decide +kernel

/-! ## Numbers in order -/

/-- Two numbers in order, between zero and a whole number. -/
def InOrder (n : Nat) (x y : Binary64) : Prop :=
  ∃ r s, x.At r ∧ y.At s ∧ r ≤ s ∧ s ≤ wholeRank n

namespace InOrder

variable {m n : Nat} {x y z x' y' : Binary64}

theorem le (h : InOrder n x y) : x.le y = true := by
  obtain ⟨r, s, hx, hy, hle, -⟩ := h
  exact (le_iff hx hy).mpr hle

theorem left (h : InOrder n x y) : InOrder n x x := by
  obtain ⟨r, s, hx, -, hle, hbound⟩ := h
  exact ⟨r, r, hx, hx, Nat.le_refl r, hle.trans hbound⟩

/-- A number below a whole number is finite. -/
theorem exists_at (h : InOrder n x x) (hn : n < 2 ^ 64) : ∃ r, x.At r ∧ r < topRank := by
  obtain ⟨r, s, hx, -, hle, hbound⟩ := h
  exact ⟨r, hx, (hle.trans hbound).trans_lt (wholeRank_lt_topRank hn)⟩

theorem lt_topRank {r : Nat} (h : InOrder n x x) (hn : n < 2 ^ 64) (hx : x.At r) : r < topRank := by
  obtain ⟨s, hx', hs⟩ := h.exists_at hn
  exact hx.unique hx' ▸ hs

theorem trans (hxy : InOrder m x y) (hyz : InOrder n y z) : InOrder n x z := by
  obtain ⟨r, s, hx, hy, hle, -⟩ := hxy
  obtain ⟨s', t, hy', hz, hle', hbound⟩ := hyz
  obtain rfl := hy.unique hy'
  exact ⟨r, t, hx, hz, hle.trans hle', hbound⟩

/-- A bound of a larger number bounds a smaller one as well. -/
theorem below (hxy : InOrder m x y) (hyz : InOrder n y z) : InOrder n x y := by
  obtain ⟨r, s, hx, hy, hle, -⟩ := hxy
  obtain ⟨s', t, hy', -, hle', hbound⟩ := hyz
  obtain rfl := hy.unique hy'
  exact ⟨r, s, hx, hy, hle, hle'.trans hbound⟩

theorem of_le (hx : InOrder m x x) (hy : InOrder n y y) (h : x.le y = true) : InOrder n x y := by
  obtain ⟨r, -, hx, -, -, -⟩ := hx
  obtain ⟨s, s', hy, hy', -, hbound⟩ := hy
  obtain rfl := hy.unique hy'
  exact ⟨r, s, hx, hy, (le_iff hx hy).mp h, hbound⟩

/-- Of two numbers either the first is at most the second, or the second is less. -/
theorem le_eq_false_iff (hx : InOrder m x x) (hy : InOrder n y y) :
    x.le y = false ↔ y.lt x = true := by
  obtain ⟨r, -, hx, -, -, -⟩ := hx
  obtain ⟨s, -, hy, -, -, -⟩ := hy
  rw [← Bool.not_eq_true, le_iff hx hy, lt_iff hy hx, Nat.not_le]

theorem of_lt (hx : InOrder m x x) (hy : InOrder n y y) (h : x.lt y = true) : InOrder n x y :=
  hx.of_le hy (le_of_lt h)

theorem not_lt_iff (hx : InOrder m x x) (hy : InOrder n y y) :
    ¬y.lt x = true ↔ x.le y = true := by
  rw [← hx.le_eq_false_iff hy, Bool.not_eq_false]

protected theorem ofNat (h : m ≤ n) : InOrder n (ofNat m) (ofNat n) :=
  ⟨_, _, at_ofNat m, at_ofNat n, wholeRank_mono h, Nat.le_refl _⟩

theorem zero (n : Nat) (negative : Bool) : InOrder n (signedZero negative) (signedZero negative) :=
  ⟨0, 0, at_zero negative, at_zero negative, Nat.le_refl 0, Nat.zero_le _⟩

theorem nat_zero (n : Nat) : InOrder n 0 0 :=
  ⟨0, 0, at_nat_zero, at_nat_zero, Nat.le_refl 0, Nat.zero_le _⟩

theorem nat_one : InOrder 1 1 1 :=
  ⟨_, _, at_one, at_one, Nat.le_refl _, Nat.le_refl _⟩

/-- Zero is in order with any number that is not below it. -/
theorem zero_left (h : InOrder n x y) : InOrder n 0 x := by
  obtain ⟨r, s, hx, -, hle, hbound⟩ := h
  exact ⟨0, r, at_nat_zero, hx, Nat.zero_le r, hle.trans hbound⟩

theorem one_right (h : InOrder 1 x y) : InOrder 1 y 1 := by
  obtain ⟨r, s, -, hy, -, hbound⟩ := h
  exact ⟨s, _, hy, at_one, hbound, Nat.le_refl _⟩

/-- What stays below the whole number after `2^53` stays below that. -/
theorem largest (h : InOrder (2 ^ 53 + 1) x y) : InOrder (2 ^ 53) x y := by
  obtain ⟨r, s, hx, hy, hle, hbound⟩ := h
  exact ⟨r, s, hx, hy, hle, hbound.trans_eq wholeRank_succ_largest⟩

theorem add (h : InOrder m x y) (h' : InOrder n x' y') (hm : m ≤ 2 ^ 53) (hn : n ≤ 2 ^ 53) :
    InOrder (m + n) (x + x') (y + y') := by
  obtain ⟨r, s, hx, hy, hle, hs⟩ := h
  obtain ⟨r', s', hx', hy', hle', hs'⟩ := h'
  have htop := hs.trans_lt (wholeRank_lt_topRank (hm.trans_lt (by decide)))
  have htop' := hs'.trans_lt (wholeRank_lt_topRank (hn.trans_lt (by decide)))
  refine ⟨_, _, hx.add hx' (hle.trans_lt htop) (hle'.trans_lt htop'), hy.add hy' htop htop',
    rankOf_mono Nat.one_pos Nat.one_pos ?_, rankOf_mono Nat.one_pos Nat.one_pos ?_⟩
  · have := quanta_strictMono.monotone hle
    have := quanta_strictMono.monotone hle'
    omega
  · have := quanta_le_of_le_wholeRank hm hs
    have := quanta_le_of_le_wholeRank hn hs'
    rw [Nat.add_mul m]
    omega

theorem mul (h : InOrder m x y) (h' : InOrder n x' y') (hm : m ≤ 2 ^ 53) (hn : n ≤ 2 ^ 53) :
    InOrder (m * n) (x * x') (y * y') := by
  obtain ⟨r, s, hx, hy, hle, hs⟩ := h
  obtain ⟨r', s', hx', hy', hle', hs'⟩ := h'
  have htop := hs.trans_lt (wholeRank_lt_topRank (hm.trans_lt (by decide)))
  have htop' := hs'.trans_lt (wholeRank_lt_topRank (hn.trans_lt (by decide)))
  refine ⟨_, _, hx.mul hx' (hle.trans_lt htop) (hle'.trans_lt htop'), hy.mul hy' htop htop',
    rankOf_mono unit_pos unit_pos (Nat.mul_le_mul_right unit ?_),
    rankOf_mono unit_pos Nat.one_pos ?_⟩
  · exact Nat.mul_le_mul (quanta_strictMono.monotone hle) (quanta_strictMono.monotone hle')
  · calc quanta s * quanta s' * 1 = quanta s * quanta s' := Nat.mul_one _
      _ ≤ m * unit * (n * unit) :=
        Nat.mul_le_mul (quanta_le_of_le_wholeRank hm hs) (quanta_le_of_le_wholeRank hn hs')
      _ = m * n * unit * unit := by ring

/-- A factor up to one keeps the bound. -/
theorem weigh (h : InOrder n x y) (h' : InOrder 1 x' y') (hn : n ≤ 2 ^ 53) :
    InOrder n (x * x') (y * y') := by
  have hproduct := h.mul h' hn (by decide)
  rwa [Nat.mul_one] at hproduct

/-- A share of a count is at most one, also of a count that is too large to be told from
infinity. -/
theorem div_ofNat (h : InOrder m x y) (hm : m < 2 ^ 64) (hmn : m ≤ n) (hpos : 0 < n) :
    InOrder 1 (x / ofNat n) (y / ofNat n) := by
  obtain ⟨r, s, hx, hy, hle, hs⟩ := h
  have htop := hs.trans_lt (wholeRank_lt_topRank hm)
  have hn := at_ofNat n
  rcases (hn.le_topRank).lt_or_eq with hlt | heq
  · have hrank := wholeRank_pos hpos
    have hquanta := quanta_pos hrank
    refine ⟨_, _, hx.div hn (hle.trans_lt htop) hrank hlt, hy.div hn htop hrank hlt,
      rankOf_mono hquanta hquanta (Nat.mul_le_mul_right _ (Nat.mul_le_mul_right unit ?_)),
      rankOf_mono hquanta Nat.one_pos ?_⟩
    · exact quanta_strictMono.monotone hle
    · have hsn : quanta s ≤ quanta (wholeRank n) :=
        quanta_strictMono.monotone (hs.trans (wholeRank_mono hmn))
      calc quanta s * unit * 1 = unit * quanta s := by ring
        _ ≤ unit * quanta (wholeRank n) := Nat.mul_le_mul_left unit hsn
        _ = 1 * unit * quanta (wholeRank n) := by ring
  · rw [heq] at hn
    exact ⟨0, 0, hx.div_infinite hn (hle.trans_lt htop), hy.div_infinite hn htop, Nat.le_refl 0,
      Nat.zero_le _⟩

theorem roundWhole (h : InOrder n x y) (hn : n ≤ 2 ^ 53) :
    InOrder n x.roundWhole y.roundWhole := by
  obtain ⟨r, s, hx, hy, hle, hs⟩ := h
  have htop := hs.trans_lt (wholeRank_lt_topRank (hn.trans_lt (by decide)))
  refine ⟨_, _, hx.roundWhole (hle.trans_lt htop), hy.roundWhole htop,
    rankOf_mono Nat.one_pos Nat.one_pos (Nat.mul_le_mul_right 1 ?_),
    rankOf_mono Nat.one_pos Nat.one_pos (Nat.mul_le_mul_right 1 ?_)⟩
  · exact wholeQuanta_mono (quanta_strictMono.monotone hle)
  · rw [← wholeQuanta_mul_unit]
    exact wholeQuanta_mono (quanta_le_of_le_wholeRank hn hs)

end InOrder

/-! ## Signs -/

/-- Whether a number carries a minus sign. -/
def isNegative : Binary64 → Bool
  | nan => false
  | number negative _ => negative

@[simp]
theorem isNegative_ofRatio (negative : Bool) (n d : Nat) :
    (ofRatio negative n d).isNegative = negative := rfl

/-- A number that is not below zero is known by its rank and its sign. -/
theorem At.eq_of_isNegative {x y : Binary64} {r : Nat} (hx : x.At r) (hy : y.At r)
    (h : x.isNegative = y.isNegative) : x = y := by
  obtain ⟨_, _, rfl, -⟩ := hx.exists_number
  obtain ⟨_, _, rfl, -⟩ := hy.exists_number
  obtain rfl : _ = _ := h
  rfl

section Signs

variable {m n : Nat} {x y : Binary64}

/-- A sum is negative, that is minus zero, if both summands are. -/
theorem InOrder.isNegative_add (hx : InOrder m x x) (hy : InOrder n y y) (hm : m < 2 ^ 64)
    (hn : n < 2 ^ 64) : (x + y).isNegative = (x.isNegative && y.isNegative) := by
  obtain ⟨r, hx, hr⟩ := hx.exists_at hm
  obtain ⟨s, hy, hs⟩ := hy.exists_at hn
  have hqx := hx.toQuanta_eq
  have hqy := hy.toQuanta_eq
  obtain ⟨negative, _, rfl, hnegative⟩ := hx.exists_number
  obtain ⟨negative', _, rfl, hnegative'⟩ := hy.exists_number
  show (Binary64.add _ _).isNegative = (negative && negative')
  simp only [Binary64.add, isInfinite_eq_false hr, isInfinite_eq_false hs, hqx, hqy,
    Bool.false_eq_true, if_false, ← Int.natCast_add]
  rw [isNegative_ofRatio]
  split
  · rfl
  · next hsum =>
    rw [decide_eq_false (Int.natCast_nonneg _).not_gt]
    refine (Bool.and_eq_false_imp.mpr fun h => Bool.eq_false_iff.mpr fun h' => hsum ?_).symm
    rw [hnegative h, hnegative' h', quanta_zero]
    rfl

theorem InOrder.isNegative_mul (hx : InOrder m x x) (hy : InOrder n y y) (hm : m < 2 ^ 64)
    (hn : n < 2 ^ 64) : (x * y).isNegative = (x.isNegative != y.isNegative) := by
  obtain ⟨r, hx, hr⟩ := hx.exists_at hm
  obtain ⟨s, hy, hs⟩ := hy.exists_at hn
  obtain ⟨negative, _, rfl, -⟩ := hx.exists_number
  obtain ⟨negative', _, rfl, -⟩ := hy.exists_number
  show (Binary64.mul _ _).isNegative = (negative != negative')
  simp only [Binary64.mul, isInfinite_eq_false hr, isInfinite_eq_false hs, Bool.or_self,
    Bool.false_eq_true, if_false, isNegative_ofRatio]

theorem InOrder.isNegative_div_ofNat (hx : InOrder m x x) (hm : m < 2 ^ 64) (hpos : 0 < n) :
    (x / ofNat n).isNegative = x.isNegative := by
  obtain ⟨r, hx, hr⟩ := hx.exists_at hm
  have hrank := (wholeRank_pos hpos).ne'
  obtain ⟨negative, _, rfl, -⟩ := hx.exists_number
  obtain ⟨negative', _, hcount, hnegative'⟩ := (at_ofNat n).exists_number
  rw [hcount, Bool.eq_false_iff.mpr fun h => hrank (hnegative' h)]
  show (Binary64.div _ _).isNegative = negative
  simp only [Binary64.div, isInfinite_eq_false hr, hrank, Bool.false_eq_true, if_false]
  split
  · exact Bool.bne_false negative
  · rw [isNegative_ofRatio]
    exact Bool.bne_false negative

theorem isNegative_roundWhole (x : Binary64) : x.roundWhole.isNegative = x.isNegative := by
  cases x with
  | nan => rfl
  | number negative rank =>
    simp only [Binary64.roundWhole]
    split
    · rfl
    · exact isNegative_ofRatio negative _ _

/-- Addition does not depend on the order of its two summands. -/
protected theorem InOrder.add_comm (hx : InOrder m x x) (hy : InOrder n y y) (hm : m < 2 ^ 64)
    (hn : n < 2 ^ 64) : x + y = y + x := by
  have hsign : (x + y).isNegative = (y + x).isNegative := by
    rw [hx.isNegative_add hy hm hn, hy.isNegative_add hx hn hm, Bool.and_comm]
  obtain ⟨r, hx, hr⟩ := hx.exists_at hm
  obtain ⟨s, hy, hs⟩ := hy.exists_at hn
  have hsum := hx.add hy hr hs
  rw [Nat.add_comm] at hsum
  exact hsum.eq_of_isNegative (hy.add hx hs hr) hsign

/-- Minus zero adds nothing to a number. -/
theorem InOrder.negativeZero_add (hx : InOrder m x x) (hm : m < 2 ^ 64) : negativeZero + x = x := by
  have hzero : InOrder 0 negativeZero negativeZero := InOrder.zero 0 true
  have hsign : (negativeZero + x).isNegative = x.isNegative :=
    hzero.isNegative_add hx (by decide) hm
  obtain ⟨r, hx, hr⟩ := hx.exists_at hm
  have hsum : (negativeZero + x).At _ := (at_zero true).add hx (by decide) hr
  have hrank := rankOf_quanta Nat.one_pos hr.le
  rw [quanta_zero, Nat.zero_add, ← Nat.mul_one (quanta r), hrank] at hsum
  exact hsum.eq_of_isNegative hx hsign

end Signs

end Binary64

end ReleaseGate
