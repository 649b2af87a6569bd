import ReleaseGate.Proofs.Json.Numeral

/-!
# Numbers in messages

Messages and summaries write every digit of a number in place, and whole numbers without a point.
The text of a finite number is still a numeral that denotes it, so the number is known from its
text.

* `Denotes`: a text is a numeral that denotes a number.
* `denotes_message`: the text of a finite number in messages denotes it.
* `text_injective`: different numbers have different texts.
* `Denotes.isNumeralChar`: the texts consist of digits, signs and points, and hold no blank.
-/

namespace ReleaseGate

open Json (Spelling signText)

/-- A text is a numeral that denotes a number. -/
def Denotes (text : List Char) (x : Binary64) : Prop :=
  ∃ s : Spelling, text = s.text ∧ s.numeral.toBinary64 = x

theorem Json.SpellsPlaces.denotes {places : Nat} {text : List Char} {x : Binary64}
    (h : SpellsPlaces places text x) : Denotes text x := by
  obtain ⟨s, htext, -, -, hdenotes⟩ := h
  exact ⟨s, htext, hdenotes⟩

theorem Denotes.eq {text : List Char} {x y : Binary64} (hx : Denotes text x)
    (hy : Denotes text y) : x = y := by
  obtain ⟨s, rfl, rfl⟩ := hx
  obtain ⟨t, htext, rfl⟩ := hy
  have hread : some s.numeral = some t.numeral := by
    rw [← s.read?_text, htext, t.read?_text]
  rw [Option.some.inj hread]

/-- A character that numerals are made of. -/
def IsNumeralChar (c : Char) : Prop := c.isDigit = true ∨ c ∈ ['-', '.', 'e', '+']

theorem Denotes.isNumeralChar {text : List Char} {x : Binary64} (h : Denotes text x) :
    ∀ c ∈ text, IsNumeralChar c := by
  obtain ⟨s, rfl, -⟩ := h
  intro c hc
  simp only [Spelling.text, Spelling.magnitude, List.mem_append] at hc
  rcases hc with hsign | (hwhole | hfraction) | hscale
  · unfold signText at hsign
    split at hsign
    · exact .inr (by simp_all)
    · cases hsign
  · exact .inl (s.isWhole.digits c hwhole)
  · unfold Json.pointed at hfraction
    split at hfraction
    · cases hfraction
    · rcases List.mem_cons.mp hfraction with rfl | hfraction
      · exact .inr (by decide)
      · exact .inl (s.fractionDigits c hfraction)
  · unfold Json.scaleText at hscale
    split at hscale
    · cases hscale
    · next e =>
      rcases List.mem_cons.mp hscale with rfl | hscale
      · exact .inr (by decide)
      · rcases List.mem_cons.mp hscale with rfl | hscale
        · split
          · exact .inr (by decide)
          · exact .inr (by decide)
        · exact .inl (digits_decimalDigits _ c hscale)

section Write

open Binary64 Json

/-- The text of a finite number in messages denotes it. -/
theorem denotes_message {x : Binary64} (hx : x.isFinite = true) :
    Denotes (RealStyle.message.write x) x := by
  cases x with
  | nan => cases hx
  | number negative rank =>
    have htop : rank.val ≠ topRank := by simpa [Binary64.isFinite] using hx
    have hrank : rank.val < topRank := by omega
    have hmark : RealStyle.message.wholeMark = pointed (List.replicate 0 '0') := rfl
    rw [RealStyle.write, if_neg htop]
    by_cases hzero : rank.val = 0
    · have hrank : rank = 0 := Fin.ext hzero
      rw [if_pos hzero, hrank]
      exact (places_zero negative hmark).denotes
    · have hpos := Nat.pos_of_ne_zero hzero
      have hround := gridPointRoundsTo_shortest RealStyle.message.tie hpos
      rw [if_neg hzero, RealStyle.writeDecimal]
      generalize shortest RealStyle.message.tie rank.val = decimal at hround
      show Denotes (signText negative ++ RealStyle.message.writePositional _ _)
        (magnitudeOf negative hrank)
      exact (places_writePositional negative hmark hpos hrank hround).denotes

end Write

namespace Binary64

variable {x y : Binary64}

theorem denotes_text (hx : x.isFinite = true) : Denotes x.text.toList x := by
  rw [text, String.toList_ofList]
  exact denotes_message hx

/-- Different numbers have different texts. -/
theorem text_injective (hx : x.isFinite = true) (hy : y.isFinite = true)
    (h : x.text.toList = y.text.toList) : x = y := by
  have hdenotes := denotes_text hx
  rw [h] at hdenotes
  exact hdenotes.eq (denotes_text hy)

end Binary64

end ReleaseGate
