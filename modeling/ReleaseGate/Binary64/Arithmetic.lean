import ReleaseGate.Binary64.Basic

/-!
# Arithmetic on binary64 numbers

Each operation is the exact result rounded once, to the nearest number and to the even rank on a
tie. There is one rounding, `rankOf`, of a quotient of natural numbers given in quanta.

* `rankOf`: the rank nearest to a quotient.
* `add`, `mul`, `div`: one rounding of the exact sum, product and quotient.
* `roundWhole`: the nearest whole number, halves away from zero.
-/

namespace ReleaseGate

namespace Binary64

/-! ## One rounding -/

/-- The whole number nearest to `n / d`, the even one of two. -/
def nearestEven (n d : Nat) : Nat :=
  let q := n / d
  let r := n % d
  if 2 * r < d then q else if d < 2 * r then q + 1 else q + q % 2

/-- The rank nearest to the magnitude `n / d` quanta. The magnitude is scaled down until its whole
part has at most 53 bits and then rounded; a carry into the next binade falls in place, because
ranks continue across binades. -/
def rankOf (n d : Nat) : Nat :=
  let shift := (n / d).log2 - 52
  min topRank (shift * binade + nearestEven n (d * Nat.pow 2 shift))

/-- A number from its sign and its magnitude `n / d` in quanta. -/
def ofRatio (negative : Bool) (n d : Nat) : Binary64 :=
  number negative ⟨rankOf n d, Nat.lt_succ_of_le (Nat.min_le_left _ _)⟩

/-! ## Operations -/

/-- The number with a given whole value. -/
def ofNat (n : Nat) : Binary64 := ofRatio false (n * unit) 1

/-- The magnitude in quanta. -/
def magnitude : Binary64 → Nat
  | nan => 0
  | number _ rank => quanta rank.val

/-- Whether it is one of the two infinities. -/
def isInfinite : Binary64 → Bool
  | nan => false
  | number _ rank => rank.val == topRank

/-- The sum. An exact zero is negative only when both summands are. -/
def add (x y : Binary64) : Binary64 :=
  match x, y with
  | nan, _ => nan
  | _, nan => nan
  | number s i, number t j =>
    if (number s i).isInfinite then
      if (number t j).isInfinite && s != t then nan else number s i
    else if (number t j).isInfinite then number t j
    else
      let sum := (number s i).toQuanta + (number t j).toQuanta
      ofRatio (if sum = 0 then s && t else decide (sum < 0)) sum.natAbs 1

/-- The product. -/
def mul (x y : Binary64) : Binary64 :=
  match x, y with
  | nan, _ => nan
  | _, nan => nan
  | number s i, number t j =>
    if (number s i).isInfinite || (number t j).isInfinite then
      if i.val = 0 ∨ j.val = 0 then nan else infinity (s != t)
    else ofRatio (s != t) (quanta i.val * quanta j.val) unit

/-- The quotient. -/
def div (x y : Binary64) : Binary64 :=
  match x, y with
  | nan, _ => nan
  | _, nan => nan
  | number s i, number t j =>
    if (number s i).isInfinite then
      if (number t j).isInfinite then nan else infinity (s != t)
    else if (number t j).isInfinite then signedZero (s != t)
    else if j.val = 0 then if i.val = 0 then nan else infinity (s != t)
    else ofRatio (s != t) (quanta i.val * unit) (quanta j.val)

/-- The nearest whole number, halves away from zero; the sign stays. -/
def roundWhole : Binary64 → Binary64
  | nan => nan
  | number s i =>
    if (number s i).isInfinite then number s i
    else ofRatio s ((2 * quanta i.val + unit) / (2 * unit) * unit) 1

instance : Add Binary64 := ⟨add⟩
instance : Mul Binary64 := ⟨mul⟩
instance : Div Binary64 := ⟨div⟩

/-- The number nearest to `digits * 10 ^ (-places)`. -/
def ofDecimal (digits places : Nat) : Binary64 := ofRatio false (digits * unit) (Nat.pow 10 places)

/-- Decimal numerals denote the nearest number. -/
instance : OfScientific Binary64 where
  ofScientific digits down places :=
    if down then ofDecimal digits places else ofNat (digits * Nat.pow 10 places)

instance (n : Nat) : OfNat Binary64 n := ⟨ofNat n⟩

end Binary64

end ReleaseGate
