import ReleaseGate.Proofs.Binary64.Fewest
import ReleaseGate.Proofs.Json.Numeral

/-!
# Numbers of few places

A numeral without an exponent denotes the number nearest to it, however many places it has. A number
in the unit interval is written with no more places than any of these numerals: the decimal that is
written is on no finer grid, and it has no digits in front of the ones. This holds of every style
that writes such numbers in place.

* `toBinary64_places`: what a numeral without an exponent denotes.
* `NearestTo`: the number that a decimal of so many places rounds to.
* `exponent_add_length_le`: the first digit of a decimal in the unit interval.
* `places_write`: no numeral that denotes a number has fewer places than its text.
-/

namespace ReleaseGate

namespace Binary64

/-! ## Numerals without an exponent -/

/-- A decimal that is cut off for its many places is below half a quantum, and rounds to zero. -/
theorem rankOf_eq_zero_of_places {c places : Nat} (h : c.log2 + finest + 2 < 3 * places) :
    rankOf (c * unit) (10 ^ places) = 0 := by
  have hpos : 0 < 10 ^ places := Nat.pow_pos (by decide)
  have hsmall : 2 * (c * unit) < 10 ^ places := calc
    2 * (c * unit) = c * 2 ^ (finest + 1) := by
      rw [unit_eq, Nat.pow_succ']
      ring
    _ < 2 ^ (c.log2 + 1) * 2 ^ (finest + 1) :=
      Nat.mul_lt_mul_of_pos_right Nat.lt_log2_self (Nat.two_pow_pos _)
    _ = 2 ^ (c.log2 + finest + 2) := by
      rw [← Nat.pow_add]
      ring
    _ ≤ 2 ^ (3 * places) := Nat.pow_le_pow_right (by decide) h.le
    _ ≤ 10 ^ places := two_pow_le_ten_pow places
  refine Nat.eq_zero_of_not_pos fun hrank => ?_
  have hmidpoint : midpoint 0 = 1 := by decide
  have hpast := (lt_rankOf_iff hpos (by decide)).mp hrank
  rw [hmidpoint] at hpast
  omega

theorem ofRatio_eq_signedZero {negative : Bool} {n d : Nat} (h : rankOf n d = 0) :
    ofRatio negative n d = signedZero negative :=
  ofRatio_of_rankOf negative (by decide) h

/-- A numeral without an exponent denotes the number nearest to it, also if it is cut off. -/
theorem toBinary64_places (negative : Bool) (c places : Nat) :
    Numeral.toBinary64 ⟨negative, c, -places⟩ = ofRatio negative (c * unit) (10 ^ places) := by
  unfold Numeral.toBinary64
  dsimp only
  split
  · next hzero =>
    subst hzero
    rw [Nat.zero_mul, ofRatio_eq_signedZero (rankOf_zero (Nat.pow_pos (by decide)))]
  · split
    · next hexponent =>
      obtain rfl : places = 0 := by omega
      simp
    · have hplaces : (- -(places : Int)).toNat = places := by omega
      rw [hplaces]
      split
      · next hcut => rw [ofRatio_eq_signedZero (rankOf_eq_zero_of_places hcut)]
      · rfl

/-! ## Grids of so many places -/

/-- A number that is not below zero and that `k / 10 ^ places` rounds to. -/
def NearestTo (x : Binary64) (k places : Nat) : Prop := x.At (rankOf (k * unit) (10 ^ places))

/-- On the grid of its places a decimal is a point that rounds to its number. -/
theorem gridPointRoundsTo_of_nearestTo {x : Binary64} {rank k places : Nat} (hx : x.At rank)
    (hpos : 0 < rank) (hrank : rank < topRank) (h : x.NearestTo k places) :
    gridPointRoundsTo rank (-(places : Int)) k = true := by
  refine gridPointRoundsTo_of_rankOf hpos hrank ?_
  simpa [gridDivisor] using At.unique h hx

/-- The midpoint above a number up to one is below that of one and two. -/
theorem midpoint_le_of_le_one {rank : Nat} (h : rank ≤ wholeRank 1) : midpoint rank ≤ 3 * unit := by
  have hless : wholeRank 1 < wholeRank 2 := by
    rw [← quanta_strictMono.lt_iff_lt, quanta_wholeRank (by decide), quanta_wholeRank (by decide)]
    exact Nat.mul_lt_mul_of_pos_right (by decide) unit_pos
  have hnext := quanta_strictMono.monotone (Nat.succ_le_of_lt hless)
  calc midpoint rank ≤ midpoint (wholeRank 1) := midpoint_strictMono.monotone h
    _ = quanta (wholeRank 1) + quanta (wholeRank 1).succ := by rw [midpoint]
    _ ≤ quanta (wholeRank 1) + quanta (wholeRank 2) := Nat.add_le_add_left hnext _
    _ = 1 * unit + 2 * unit := by
      rw [quanta_wholeRank (by decide), quanta_wholeRank (by decide)]
    _ = 3 * unit := by ring

/-- A decimal that rounds to a number up to one has its first digit at the ones or behind. -/
theorem exponent_add_length_le {rank c : Nat} {exponent : Int} (hpos : 0 < rank)
    (hone : rank ≤ wholeRank 1) (h : gridPointRoundsTo rank exponent c = true) :
    exponent + (decimalDigits c).length ≤ 1 := by
  have hpoint : 2 * c * 10 ^ exponent.toNat ≤ 3 * 10 ^ (-exponent).toNat := by
    refine Nat.le_of_mul_le_mul_right ?_ unit_pos
    calc 2 * c * 10 ^ exponent.toNat * unit = c * gridStep exponent := by
          unfold gridStep
          rw [Nat.pow_eq]
          ring
      _ ≤ midpoint rank * gridDivisor exponent := le_midpoint_of_roundsTo hpos h
      _ ≤ 3 * unit * gridDivisor exponent :=
        Nat.mul_le_mul_right _ (midpoint_le_of_le_one hone)
      _ = 3 * 10 ^ (-exponent).toNat * unit := Nat.mul_right_comm 3 unit _
  have hlength := List.length_pos_iff.mpr (decimalDigits_ne_nil c)
  have hdigits := ten_pow_le_of_decimalDigits (ne_zero_of_roundsTo hpos h)
  generalize (decimalDigits c).length = length at hlength hdigits ⊢
  by_contra hlarge
  have hpower : 10 * 10 ^ (-exponent).toNat ≤ c * 10 ^ exponent.toNat := calc
    10 * 10 ^ (-exponent).toNat = 10 ^ ((-exponent).toNat + 1) := Nat.pow_succ'.symm
    _ ≤ 10 ^ (length - 1 + exponent.toNat) := Nat.pow_le_pow_right (by decide) (by omega)
    _ = 10 ^ (length - 1) * 10 ^ exponent.toNat := Nat.pow_add 10 _ _
    _ ≤ c * 10 ^ exponent.toNat := Nat.mul_le_mul_right _ hdigits
  have hten : 0 < 10 ^ (-exponent).toNat := Nat.pow_pos (by decide)
  rw [Nat.mul_assoc] at hpoint
  omega

end Binary64

namespace Json

open Binary64

/-- What a numeral without an exponent denotes is nearest to a decimal of its places. -/
theorem SpellsPlaces.exists_nearestTo {places : Nat} {text : List Char} {x : Binary64} {rank : Nat}
    (h : SpellsPlaces places text x) (hx : x.At rank) : ∃ k, x.NearestTo k places := by
  obtain ⟨s, -, hscale, hlength, hdenotes⟩ := h
  have hnumeral : s.numeral = ⟨s.negative, digitsValue (s.whole ++ s.fraction), -places⟩ := by
    simp [Spelling.numeral, Numeral.ofParts, hscale, hlength]
  rw [hnumeral, toBinary64_places] at hdenotes
  refine ⟨digitsValue (s.whole ++ s.fraction), ?_⟩
  obtain ⟨negative, hbound, heq, -⟩ := hx.exists_number
  have hrank : rankOf (digitsValue (s.whole ++ s.fraction) * unit) (10 ^ places) = rank :=
    congrArg Fin.val (number.inj (hdenotes.trans heq)).2
  rw [NearestTo, hrank]
  exact hx

/-- A number in the unit interval is written with no more places than any numeral that denotes it
has, but for the zeros that a style marks whole numbers with. -/
theorem places_write {style : RealStyle} {zeros k places : Nat} {x : Binary64}
    (hmark : style.wholeMark = pointed (List.replicate zeros '0'))
    (hx : InOrder 1 x x) (hnearest : x.NearestTo k places)
    (hpositional : ∀ first : Int, -places ≤ first → first ≤ 0 → style.positional first = true) :
    ∃ n ≤ max zeros places, SpellsPlaces n (style.write x) x ∧
      ∀ m text, SpellsPlaces m text x → n ≤ max zeros m := by
  obtain ⟨rank, s, hrank, -, hle, hs⟩ := hx
  have htop : rank < topRank := (hle.trans hs).trans_lt (wholeRank_lt_topRank (by decide))
  obtain ⟨negative, hbound, rfl, -⟩ := hrank.exists_number
  rw [RealStyle.write, if_neg htop.ne]
  by_cases hzero : rank = 0
  · subst hzero
    rw [if_pos rfl]
    exact ⟨zeros, Nat.le_max_left _ _, places_zero negative hmark,
      fun m text _ => Nat.le_max_left _ _⟩
  · have hpos := Nat.pos_of_ne_zero hzero
    have hcoarse : ∀ j m, (number negative ⟨rank, hbound⟩).NearestTo j m →
        -(m : Int) ≤ (shortest style.tie rank).exponent := fun j m h =>
      exponent_le_shortest style.tie hpos (gridPointRoundsTo_of_nearestTo hrank hpos htop h)
    have hpoint := gridPointRoundsTo_shortest style.tie hpos
    rw [if_neg hzero, RealStyle.writeDecimal]
    generalize shortest style.tie rank = decimal at hcoarse hpoint
    have hplaces := hcoarse k places hnearest
    have hlength := List.length_pos_iff.mpr (decimalDigits_ne_nil decimal.digits)
    have hfirst := exponent_add_length_le hpos (hle.trans hs) hpoint
    have hstyle : style.positional (decimal.exponent + (decimalDigits decimal.digits).length - 1) =
        true := hpositional _ (by omega) (by omega)
    rw [if_pos hstyle]
    refine ⟨placesBehind zeros decimal.exponent, placesBehind_le hplaces,
      places_writePositional negative hmark hpos htop hpoint, fun m text hspells => ?_⟩
    obtain ⟨j, hj⟩ := hspells.exists_nearestTo hrank
    exact placesBehind_le (hcoarse j m hj)

end Json

end ReleaseGate
