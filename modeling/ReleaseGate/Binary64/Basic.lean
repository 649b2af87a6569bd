/-!
# Binary64 numbers

A number is not-a-number, or a sign and a *rank*: the place of its magnitude among all binary64
magnitudes, counted from zero. Rank `topRank` is infinity. Ranks order magnitudes, so a comparison
of two numbers is a comparison of two signed ranks, with both zeros at rank 0.

Every finite magnitude is a whole number of *quanta*, a quantum being `2^-1074`.

* `quanta`: the magnitude of a rank, in quanta.
* `quanta_lt_succ`: ranks and magnitudes rise together.
* `lt`, `le`: the order of numbers, false as soon as one side is not a number.
-/

namespace ReleaseGate

/-- The rank of infinity: 2047 binades of `2^52` magnitudes each. -/
def Binary64.topRank : Nat := 9218868437227405312

/-- A binary64 number. -/
inductive Binary64 where
  /-- Not a number. -/
  | nan
  /-- A sign and the rank of a magnitude. -/
  | number (negative : Bool) (rank : Fin (Binary64.topRank + 1))
  deriving DecidableEq

namespace Binary64

/-- Ranks per binade: the 52 fraction bits. -/
def binade : Nat := 4503599627370496

/-- A quantum is two to the minus this. -/
def finest : Nat := 1074

/-- Quanta in one unit. -/
def unit : Nat := Nat.pow 2 finest

/-- The magnitude of a rank in quanta. The first binade holds the subnormal magnitudes, with the
same step as the second; every later binade doubles the step. -/
def quanta (rank : Nat) : Nat :=
  if rank < binade then rank else (binade + rank % binade) * Nat.pow 2 (rank / binade - 1)

instance : Inhabited Binary64 := ⟨nan⟩

/-- Zero of a given sign. -/
def signedZero (negative : Bool) : Binary64 := number negative 0

/-- Zero without a sign. -/
def zero : Binary64 := signedZero false

/-- Zero with a minus sign. -/
def negativeZero : Binary64 := signedZero true

/-- Infinity of a given sign. -/
def infinity (negative : Bool) : Binary64 := number negative (Fin.last topRank)

/-- Neither not-a-number nor infinite. -/
def isFinite : Binary64 → Bool
  | nan => false
  | number _ rank => rank.val != topRank

/-- The rank with its sign, by which numbers are ordered; none for not-a-number. -/
def signedRank? : Binary64 → Option Int
  | nan => none
  | number negative rank => some (if negative then -(rank.val : Int) else rank.val)

/-- The order of two numbers by a relation on signed ranks, false if one is not a number. -/
def compareBy (rel : Int → Int → Bool) (x y : Binary64) : Bool :=
  match x.signedRank?, y.signedRank? with
  | some a, some b => rel a b
  | _, _ => false

/-- Strictly less. -/
def lt (x y : Binary64) : Bool := compareBy (fun a b => a < b) x y

/-- Less or equal. -/
def le (x y : Binary64) : Bool := compareBy (fun a b => a ≤ b) x y

/-- Whether a number is a zero of either sign. -/
def isZero (x : Binary64) : Bool := x.signedRank? == some 0

/-- The value of a finite number in quanta; zero stands in for what is not finite. -/
def toQuanta : Binary64 → Int
  | nan => 0
  | number negative rank =>
    if negative then -(quanta rank.val : Int) else quanta rank.val

/-! ## Magnitudes of neighbouring ranks -/

theorem binade_pos : 0 < binade := by decide

theorem unit_pos : 0 < unit := by
  unfold unit
  generalize finest = n
  exact Nat.two_pow_pos n

/-- In the first two binades a rank is its own magnitude. -/
theorem quanta_of_lt {rank : Nat} (h : rank < 2 * binade) : quanta rank = rank := by
  unfold quanta
  split
  · rfl
  · next hge =>
    have hq : rank / binade = 1 :=
      Nat.div_eq_of_lt_le (by omega) (by omega)
    have hm := Nat.div_add_mod rank binade
    rw [hq] at hm
    simp only [hq, Nat.sub_self, Nat.pow, Nat.mul_one]
    omega

/-- A magnitude in binade `b ≥ 1`, at place `i` of it. -/
theorem quanta_binade {b i : Nat} (hb : 1 ≤ b) (hi : i < binade) :
    quanta (b * binade + i) = (binade + i) * Nat.pow 2 (b - 1) := by
  have hpos := binade_pos
  have hge : ¬ b * binade + i < binade := by
    have := Nat.mul_le_mul_right binade hb
    omega
  have hm : (b * binade + i) % binade = i := by
    rw [Nat.mul_comm, Nat.mul_add_mod]
    exact Nat.mod_eq_of_lt hi
  have hd : (b * binade + i) / binade = b := by
    rw [Nat.mul_comm, Nat.mul_add_div hpos, Nat.div_eq_of_lt hi, Nat.add_zero]
  rw [quanta, if_neg hge, hm, hd]

/-- Ranks and magnitudes rise together. -/
theorem quanta_lt_succ (rank : Nat) : quanta rank < quanta (rank + 1) := by
  by_cases h : rank + 1 < 2 * binade
  · rw [quanta_of_lt h, quanta_of_lt (by omega)]
    omega
  · have hpos := binade_pos
    have hm := Nat.div_add_mod rank binade
    have hi := Nat.mod_lt rank hpos
    have hb : 1 ≤ rank / binade := (Nat.one_le_div_iff hpos).2 (by omega)
    have hr : rank = rank / binade * binade + rank % binade := by
      rw [Nat.mul_comm]; exact hm.symm
    have h0 : quanta rank = (binade + rank % binade) * Nat.pow 2 (rank / binade - 1) := by
      conv => lhs; rw [hr]
      exact quanta_binade hb hi
    have hp : 0 < Nat.pow 2 (rank / binade - 1) := Nat.two_pow_pos _
    by_cases hlast : rank % binade + 1 < binade
    · have h1 : quanta (rank + 1) =
          (binade + (rank % binade + 1)) * Nat.pow 2 (rank / binade - 1) := by
        have hr' : rank + 1 = rank / binade * binade + (rank % binade + 1) := by omega
        conv => lhs; rw [hr']
        exact quanta_binade hb hlast
      rw [h0, h1]
      exact Nat.mul_lt_mul_of_pos_right (by omega) hp
    · have hr' : rank + 1 = (rank / binade + 1) * binade + 0 := by
        rw [Nat.add_mul]
        omega
      have h1 : quanta (rank + 1) = (binade + 0) * Nat.pow 2 (rank / binade + 1 - 1) := by
        conv => lhs; rw [hr']
        exact quanta_binade (by omega) hpos
      have hpow : Nat.pow 2 (rank / binade + 1 - 1) = 2 * Nat.pow 2 (rank / binade - 1) := by
        rw [show rank / binade + 1 - 1 = (rank / binade - 1) + 1 by omega]
        exact Nat.mul_comm _ _
      rw [h0, h1, hpow, Nat.add_zero, ← Nat.mul_assoc]
      exact Nat.mul_lt_mul_of_pos_right (by omega) hp

end Binary64

end ReleaseGate
