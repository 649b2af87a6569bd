import ReleaseGate.Proofs.Binary64.Places
import ReleaseGate.Proofs.Scoring.Spread
import ReleaseGate.Yaml.Writer

/-!
# Figures of four places

A figure is scaled, rounded to a whole number and scaled back, with a rounding each time. What comes
out is nevertheless the number nearest to some count of ten thousandths: it is kept by rounding it
again, and its text has four digits behind the point at most.

* `exists_nearestTo_fourPlaces`: the number nearest to a count of ten thousandths.
* `fourPlaces_fourPlaces`: a figure that has been rounded is kept.
* `fourPlaces_rounds`: what rounding does to the numbers of the unit interval.
-/

namespace ReleaseGate

open Binary64 (InOrder roundoff)

variable {x y : Binary64}

/-- A rounded figure is the number nearest to a count of ten thousandths. -/
theorem exists_nearestTo_fourPlaces (hx : InOrder 1 x x) :
    ∃ k ≤ 10000, (fourPlaces x).NearestTo k 4 := by
  obtain ⟨k, hk, hround, -, -⟩ := exists_fourPlaces hx
  have hquotient := hround.div (Binary64.at_ofNat 10000)
    (Binary64.wholeRank_lt_topRank (hk.trans_lt (by decide))) (Binary64.wholeRank_pos (by decide))
    (Binary64.wholeRank_lt_topRank (by decide))
  rw [Binary64.quanta_wholeRank (hk.trans (by decide)), Binary64.quanta_wholeRank (by decide),
    Binary64.rankOf_mul_right (by decide) Binary64.unit_pos] at hquotient
  exact ⟨k, hk, hquotient⟩

theorem isNegative_fourPlaces (hx : InOrder 1 x x) :
    (fourPlaces x).isNegative = x.isNegative := by
  have hround := (inOrder_scaled hx).roundWhole (by decide)
  refine (hround.isNegative_div_ofNat (by decide) (by decide)).trans ?_
  rw [Binary64.isNegative_roundWhole, isNegative_scaled hx]

/-- A figure that has been rounded is kept: it is off its count of ten thousandths by a few
roundings, and scaling it again does not bring it anywhere near a half. -/
theorem fourPlaces_fourPlaces (hx : InOrder 1 x x) : fourPlaces (fourPlaces x) = fourPlaces x := by
  have hz := inOrder_fourPlaces hx
  have hsign : (fourPlaces x * 10000).roundWhole.isNegative = (x * 10000).roundWhole.isNegative := by
    rw [Binary64.isNegative_roundWhole, Binary64.isNegative_roundWhole, isNegative_scaled hz,
      isNegative_scaled hx, isNegative_fourPlaces hx]
  obtain ⟨k, -, hk, -, hback⟩ := exists_fourPlaces hx
  obtain ⟨j, -, hj, hhalf, -⟩ := exists_fourPlaces hz
  obtain ⟨hbelow, habove⟩ := abs_le.mp hback
  obtain ⟨hbelow₁, habove₁⟩ := abs_le.mp (abs_value_scaled hz)
  obtain ⟨hbelow₂, habove₂⟩ := abs_le.mp hhalf
  have hsmall : 40000 * roundoff < 1 / 2 := by
    unfold Binary64.roundoff
    norm_num
  have hless : (j : ℚ) < k + 1 := by linarith
  have hmore : (k : ℚ) < j + 1 := by linarith
  obtain rfl : j = k := by
    have hle : j < k + 1 := by exact_mod_cast hless
    have hge : k < j + 1 := by exact_mod_cast hmore
    omega
  exact congrArg (· / 10000) (hj.eq_of_isNegative hk hsign)

/-- A rounded figure is written with four digits behind the point at most, and with no more of them
than any numeral that denotes it has. -/
theorem places_fourPlaces {style : RealStyle} {zeros : Nat} (hzeros : zeros ≤ 1)
    (hmark : style.wholeMark = Json.pointed (List.replicate zeros '0'))
    (hpositional : ∀ first : Int, -4 ≤ first → first ≤ 0 → style.positional first = true)
    (hx : InOrder 1 x x) : ∃ places ≤ 4,
      Json.SpellsPlaces places (style.write (fourPlaces x)) (fourPlaces x) ∧
        ∀ n text, Json.SpellsPlaces n text (fourPlaces x) → places ≤ max 1 n := by
  obtain ⟨k, -, hnearest⟩ := exists_nearestTo_fourPlaces hx
  obtain ⟨places, hfour, hspells, hfewest⟩ :=
    Json.places_write hmark (inOrder_fourPlaces hx) hnearest hpositional
  refine ⟨places, by omega, hspells, fun n text h => ?_⟩
  have hfewer := hfewest n text h
  omega

/-- Rounding to four places keeps the order of the numbers in the unit interval and does not leave
it. What has been rounded is kept, and its text, in JSON, in YAML and in messages, has four digits
behind the point at most: no more than any numeral that denotes it, or a single zero. -/
theorem fourPlaces_rounds (hx : inUnitInterval x = true) (hy : inUnitInterval y = true) :
    (x.le y = true → (fourPlaces x).le (fourPlaces y) = true) ∧
    inUnitInterval (fourPlaces x) = true ∧
    fourPlaces (fourPlaces x) = fourPlaces x ∧
    ∀ style ∈ [Json.realStyle, Yaml.realStyle, RealStyle.message], ∃ places ≤ 4,
      Json.SpellsPlaces places (style.write (fourPlaces x)) (fourPlaces x) ∧
        ∀ n text, Json.SpellsPlaces n text (fourPlaces x) → places ≤ max 1 n := by
  have hx := inUnitInterval_iff.mp hx
  have hy := inUnitInterval_iff.mp hy
  refine ⟨fun hle => (inOrder_fourPlaces (hx.of_le hy hle)).le,
    inUnitInterval_iff.mpr (inOrder_fourPlaces hx), fourPlaces_fourPlaces hx, ?_⟩
  have hrecords : ∀ first : Int, -4 ≤ first → first ≤ 0 → (-5 ≤ first && first < 16) = true := by
    intro first hlow hhigh
    simp only [Bool.and_eq_true, decide_eq_true_eq]
    omega
  have hmark : ".0".toList = Json.pointed (List.replicate 1 '0') := by decide
  simp only [List.forall_mem_cons, List.not_mem_nil, false_imp_iff, implies_true, and_true]
  refine ⟨?json, ?yaml, ?message⟩
  case json => exact places_fourPlaces (Nat.le_refl 1) hmark hrecords hx
  case yaml => exact places_fourPlaces (Nat.le_refl 1) hmark hrecords hx
  case message =>
    have hmark : RealStyle.message.wholeMark = Json.pointed (List.replicate 0 '0') := rfl
    exact places_fourPlaces (Nat.zero_le 1) hmark (fun _ _ _ => rfl) hx

/-- `0.00035` is less than three and a half ten thousandths, but scaling it rounds onto the half, so
it is shown as four of them; the largest number below one is shown as one. -/
theorem fourPlaces_rounds_half :
    inUnitInterval 0.00035 = true ∧ inUnitInterval 0.9999999999999999 = true ∧
      (fourPlaces 0.00035).le (fourPlaces 0.9999999999999999) = true ∧
      fourPlaces (fourPlaces 0.00035) = fourPlaces 0.00035 ∧
      fourPlaces 0.00035 = 0.0004 ∧ fourPlaces 0.9999999999999999 = 1 ∧
      Json.realStyle.write (fourPlaces 0.00035) = "0.0004".toList ∧
      ∃ places ≤ 4, Json.SpellsPlaces places
        (Json.realStyle.write (fourPlaces 0.00035)) (fourPlaces 0.00035) := by
  have hhalf : inUnitInterval 0.00035 = true := by decide +kernel
  have hnext : inUnitInterval 0.9999999999999999 = true := by decide +kernel
  obtain ⟨hmono, -, hkept, hplaces⟩ := fourPlaces_rounds hhalf hnext
  obtain ⟨places, hfew, hspells, -⟩ := hplaces Json.realStyle (by simp)
  refine ⟨hhalf, hnext, hmono (by decide +kernel), hkept, ?_, ?_, ?_, places, hfew, hspells⟩
  · decide +kernel
  · decide +kernel
  · decide +kernel

end ReleaseGate
