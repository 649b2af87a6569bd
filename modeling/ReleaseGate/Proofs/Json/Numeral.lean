import ReleaseGate.Json.Reader
import ReleaseGate.Proofs.Binary64.Shortest
import ReleaseGate.Proofs.Text.Digits

/-!
# Numerals read back

A numeral that is written has the parts that JSON grammar gives it: a sign, digits without a zero
in front, digits behind a point, and an exponent. The reader finds the same parts again, and they
denote the number that was written.

* `Spelling`: the parts of a numeral, with their form.
* `Spelling.readNumeral_text`: the reader takes a whole numeral and stops behind it.
* `Spelling.read?_text`: the parts that are read are those that were written.
* `places_zero`, `places_writePositional`: digits that are written in place, and how many of them
  are behind the point.
* `spells_write`: a finite number is spelled with a point or an exponent, and its numeral denotes
  it.
* `real?_real`, `integer?_integer`: numbers read back, whole numbers as whole numbers.
-/

namespace ReleaseGate.Json

/-! ## The parts of a numeral -/

/-- Digits in front of a point: a single zero, or digits that do not start with one. -/
structure IsWhole (cs : List Char) : Prop where
  digits : Digits cs
  ne_nil : cs ≠ []
  zero : cs = ['0'] ∨ cs.head? ≠ some '0'

/-- The text does not go on as a numeral would. -/
def EndsNumeral (text : List Char) : Prop :=
  ∀ c ∈ text.head?, c.isDigit = false ∧ c ≠ '.' ∧ c ≠ 'e' ∧ c ≠ 'E'

theorem EndsNumeral.noDigit {text : List Char} (h : EndsNumeral text) : NoDigit text :=
  fun c hc => (h c hc).1

theorem endsNumeral_nil : EndsNumeral [] := by simp [EndsNumeral]

/-- The sign in front of a numeral. -/
def signText (negative : Bool) : List Char := if negative then ['-'] else []

/-- A point and the digits behind it, if there are any. -/
def pointed (fraction : List Char) : List Char :=
  if fraction.isEmpty then [] else '.' :: fraction

/-- An exponent with its sign, if there is one. -/
def scaleText : Option Int → List Char
  | none => []
  | some e => 'e' :: (if e < 0 then '-' else '+') :: decimalDigits e.natAbs

/-- The parts of a numeral. -/
structure Spelling where
  negative : Bool
  whole : List Char
  fraction : List Char
  scale : Option Int
  isWhole : IsWhole whole
  fractionDigits : Digits fraction

namespace Spelling

/-- The numeral without its sign. -/
def magnitude (s : Spelling) : List Char := s.whole ++ pointed s.fraction ++ scaleText s.scale

/-- The numeral of given parts. -/
def text (s : Spelling) : List Char := signText s.negative ++ s.magnitude

/-- What a numeral of given parts says. -/
def numeral (s : Spelling) : Numeral := .ofParts s.negative s.whole s.fraction (s.scale.getD 0)

/-- A numeral starts with a digit behind its sign. -/
theorem exists_digit_cons (s : Spelling) :
    ∃ c cs, c.isDigit = true ∧ s.magnitude = c :: cs := by
  obtain ⟨c, cs, hwhole⟩ := List.exists_cons_of_ne_nil s.isWhole.ne_nil
  have hdigit := s.isWhole.digits c (by simp [hwhole])
  exact ⟨c, cs ++ pointed s.fraction ++ scaleText s.scale, hdigit, by simp [magnitude, hwhole]⟩

end Spelling

theorem ne_of_isDigit {c d : Char} (hc : c.isDigit = true) (hd : d.isDigit = false) : c ≠ d := by
  rintro rfl
  simp [hc] at hd

/-! ## Taking a numeral from a text -/

section Read

variable {rest : List Char}

theorem readDigits_append {digits : List Char} (hd : Digits digits) (hne : digits ≠ [])
    (hr : NoDigit rest) : readDigits (digits ++ rest) = some (digits, rest) := by
  simp [readDigits, spanDigits, takeWhile_isDigit hd hr, dropWhile_isDigit hd hr, hne]

theorem readWhole_append {digits : List Char} (h : IsWhole digits) (hr : NoDigit rest) :
    readWhole (digits ++ rest) = some (digits, rest) := by
  rcases h.zero with rfl | hhead
  · cases rest with
    | nil => rfl
    | cons c rest => simp [readWhole, noDigit_cons.mp hr]
  · obtain ⟨c, cs, rfl⟩ := List.exists_cons_of_ne_nil h.ne_nil
    have hzero : c ≠ '0' := by simpa using hhead
    rw [← readDigits_append h.digits h.ne_nil hr]
    unfold readWhole
    split
    · next heq => exact absurd (List.cons.inj heq).1 hzero
    · rfl

theorem readFraction_append {fraction : List Char} (hd : Digits fraction) (hr : NoDigit rest)
    (hpoint : rest.head? ≠ some '.') :
    readFraction (pointed fraction ++ rest) = some (pointed fraction, rest) := by
  by_cases hne : fraction = []
  · subst hne
    unfold readFraction
    split
    · next heq => simp [pointed] at heq; simp [heq] at hpoint
    · simp [pointed]
  · simp [pointed, hne, readFraction, readDigits_append hd hne hr]

theorem readExponent_append (scale : Option Int) (hr : EndsNumeral rest) :
    readExponent (scaleText scale ++ rest) = some (scaleText scale, rest) := by
  cases scale with
  | none =>
    cases rest with
    | nil => rfl
    | cons c rest =>
      have hc := hr c rfl
      simp [scaleText, readExponent, hc]
  | some e =>
    have hdigits := readDigits_append (digits_decimalDigits e.natAbs) (decimalDigits_ne_nil _)
      hr.noDigit
    by_cases hneg : e < 0
    · simp [scaleText, readExponent, hneg, hdigits]
    · simp [scaleText, readExponent, hneg, hdigits]

theorem noDigit_scaleText (scale : Option Int) (hr : EndsNumeral rest) :
    NoDigit (scaleText scale ++ rest) := by
  cases scale with
  | none => exact hr.noDigit
  | some e => simp [scaleText]

theorem head?_scaleText (scale : Option Int) (hr : EndsNumeral rest) :
    (scaleText scale ++ rest).head? ≠ some '.' := by
  cases scale with
  | none => exact fun h => (hr '.' h).2.1 rfl
  | some e => simp [scaleText]

theorem noDigit_pointed (fraction : List Char) (hr : NoDigit rest) :
    NoDigit (pointed fraction ++ rest) := by
  unfold pointed
  split
  · exact hr
  · exact noDigit_cons.mpr (by decide)

namespace Spelling

variable (s : Spelling)

theorem readMagnitude_magnitude (hr : EndsNumeral rest) :
    readMagnitude (s.magnitude ++ rest) = some (s.magnitude, rest) := by
  have hscale := noDigit_scaleText s.scale hr
  have hwhole := readWhole_append s.isWhole (noDigit_pointed s.fraction hscale)
  have hfraction := readFraction_append s.fractionDigits hscale (head?_scaleText s.scale hr)
  simp [readMagnitude, magnitude, hwhole, hfraction, readExponent_append s.scale hr]

/-- The reader takes a whole numeral and stops behind it. -/
theorem readNumeral_text (hr : EndsNumeral rest) :
    readNumeral (s.text ++ rest) = some (s.text, rest) := by
  have hmagnitude := s.readMagnitude_magnitude hr
  unfold text signText
  cases s.negative with
  | true => simp [readNumeral, hmagnitude]
  | false =>
    obtain ⟨c, cs, hdigit, hcons⟩ := s.exists_digit_cons
    have hminus : c ≠ '-' := ne_of_isDigit hdigit (by decide)
    simp only [Bool.false_eq_true, if_false, List.nil_append]
    rw [← hmagnitude, hcons]
    unfold readNumeral
    split
    · next heq => exact absurd (List.cons.inj heq).1 hminus
    · rfl

end Spelling

end Read

/-! ## The parts that a numeral says -/

namespace Spelling

variable (s : Spelling)

theorem readExponent?_digits (e : Int) :
    Numeral.readExponent? ((if e < 0 then '-' else '+') :: decimalDigits e.natAbs) = some e := by
  have hall : (decimalDigits e.natAbs).all Char.isDigit = true :=
    List.all_eq_true.mpr (digits_decimalDigits _)
  generalize hn : e.natAbs = n at hall ⊢
  by_cases hneg : e < 0
  · simp [Numeral.readExponent?, Numeral.readSign, hneg, decimalDigits_ne_nil, hall]
    omega
  · simp [Numeral.readExponent?, Numeral.readSign, hneg, decimalDigits_ne_nil, hall]
    omega

theorem readScale?_scaleText (scale : Option Int) :
    Numeral.readScale? (scaleText scale) = some (scale.getD 0) := by
  cases scale with
  | none => rfl
  | some e => simp [scaleText, Numeral.readScale?, readExponent?_digits]

theorem readUnsigned?_magnitude (negative : Bool) :
    Numeral.readUnsigned? negative s.magnitude =
      some (.ofParts negative s.whole s.fraction (s.scale.getD 0)) := by
  have hscale : NoDigit (scaleText s.scale) := by
    simpa using noDigit_scaleText s.scale endsNumeral_nil
  have hpoint : (scaleText s.scale).head? ≠ some '.' := by
    simpa using head?_scaleText s.scale endsNumeral_nil
  have hrest := noDigit_pointed s.fraction hscale
  have hne := s.isWhole.ne_nil
  simp only [Numeral.readUnsigned?, magnitude, List.append_assoc,
    takeWhile_isDigit s.isWhole.digits hrest, dropWhile_isDigit s.isWhole.digits hrest]
  by_cases hfraction : s.fraction = []
  · simp only [hfraction, pointed, List.isEmpty_nil, if_true, List.nil_append]
    split
    · next heq => simp [heq] at hpoint
    · simp [hne, readScale?_scaleText]
  · simp [pointed, hfraction, hne, takeWhile_isDigit s.fractionDigits hscale,
      dropWhile_isDigit s.fractionDigits hscale, readScale?_scaleText]

/-- The parts that are read are those that were written. -/
theorem read?_text : Numeral.read? s.text = some s.numeral := by
  unfold Numeral.read? numeral text signText
  cases s.negative with
  | true => exact s.readUnsigned?_magnitude true
  | false =>
    obtain ⟨c, cs, hdigit, hcons⟩ := s.exists_digit_cons
    have hplus : c ≠ '+' := ne_of_isDigit hdigit (by decide)
    have hminus : c ≠ '-' := ne_of_isDigit hdigit (by decide)
    have hsign : Numeral.readSign s.magnitude = (false, s.magnitude) := by
      rw [hcons]
      unfold Numeral.readSign
      split
      · next heq => exact absurd (List.cons.inj heq).1 hplus
      · next heq => exact absurd (List.cons.inj heq).1 hminus
      · rfl
    simp only [Bool.false_eq_true, if_false, List.nil_append, hsign]
    exact s.readUnsigned?_magnitude false

/-- A numeral with a point or an exponent is not whole. -/
theorem integer?_text (hreal : s.fraction ≠ [] ∨ s.scale ≠ none) :
    (Tree.numeral s.text).integer? = none := by
  have hmark : s.magnitude.all Char.isDigit = false := by
    rw [List.all_eq_false]
    rcases hreal with hfraction | hscale
    · exact ⟨'.', by simp [magnitude, pointed, hfraction], by decide⟩
    · obtain ⟨e, he⟩ := Option.ne_none_iff_exists'.mp hscale
      exact ⟨'e', by simp [magnitude, scaleText, he], by decide⟩
  unfold text signText
  cases s.negative with
  | true => simp [Tree.integer?, hmark]
  | false =>
    obtain ⟨c, cs, hdigit, hcons⟩ := s.exists_digit_cons
    have hminus : c ≠ '-' := ne_of_isDigit hdigit (by decide)
    simp only [Bool.false_eq_true, if_false, List.nil_append]
    rw [hcons] at hmark ⊢
    unfold Tree.integer?
    split
    · next heq => exact absurd (List.cons.inj (Tree.numeral.inj heq)).1 hminus
    · next heq => rw [← Tree.numeral.inj heq, hmark]; rfl
    · rfl

end Spelling

/-! ## How numbers are spelled -/

theorem isWhole_zero : IsWhole ['0'] := ⟨by simp, by simp, .inl rfl⟩

/-- Digits that start like those of a number above zero stand in front of a point. -/
theorem isWhole_of_head? {n : Nat} {cs : List Char} (hn : n ≠ 0) (hd : Digits cs)
    (hhead : cs.head? = (decimalDigits n).head?) : IsWhole cs where
  digits := hd
  ne_nil := by
    rintro rfl
    exact decimalDigits_ne_nil n (List.head?_eq_none_iff.mp hhead.symm)
  zero := .inr (hhead ▸ head?_decimalDigits_ne_zero hn)

/-- A text is a numeral with a point or an exponent that denotes a number. -/
def Spells (text : List Char) (x : Binary64) : Prop :=
  ∃ s : Spelling, text = s.text ∧ (s.fraction ≠ [] ∨ s.scale ≠ none) ∧ s.numeral.toBinary64 = x

/-- A text is a numeral without an exponent, with so many digits behind its point, that denotes a
number. -/
def SpellsPlaces (places : Nat) (text : List Char) (x : Binary64) : Prop :=
  ∃ s : Spelling, text = s.text ∧ s.scale = none ∧ s.fraction.length = places ∧
    s.numeral.toBinary64 = x

theorem SpellsPlaces.spells {places : Nat} {text : List Char} {x : Binary64}
    (h : SpellsPlaces places text x) (hplaces : 0 < places) : Spells text x := by
  obtain ⟨s, htext, -, hlength, hdenotes⟩ := h
  exact ⟨s, htext, .inl (List.ne_nil_of_length_pos (hlength ▸ hplaces)), hdenotes⟩

section Write

open Binary64

variable (negative : Bool) {rank c : Nat} {exponent : Int}

/-- Zero is written like any whole number. -/
theorem places_zero {style : RealStyle} {zeros : Nat}
    (hmark : style.wholeMark = pointed (List.replicate zeros '0')) :
    SpellsPlaces zeros (signText negative ++ '0' :: style.wholeMark) (signedZero negative) := by
  refine ⟨⟨negative, ['0'], List.replicate zeros '0', none, isWhole_zero,
    digits_replicate_zero zeros⟩, ?_, rfl, List.length_replicate, ?_⟩
  · simp [Spelling.text, Spelling.magnitude, scaleText, hmark]
  · have hdigits : digitsValue (['0'] ++ List.replicate zeros '0') = 0 := by
      rw [digitsValue_append, digitsValue_zero, digitsValue_replicate_zero, Nat.mul_zero]
    exact if_pos hdigits

/-- Parts that name a point of a grid denote the number that the point rounds to. -/
theorem places_of_parts (hpos : 0 < rank) (hrank : rank < topRank) {whole fraction : List Char}
    (hwhole : IsWhole whole) (hfraction : Digits fraction)
    (h : gridPointRoundsTo rank (-(fraction.length : Int)) (digitsValue (whole ++ fraction)) =
      true) :
    SpellsPlaces fraction.length (signText negative ++ (whole ++ pointed fraction))
      (magnitudeOf negative hrank) := by
  refine ⟨⟨negative, whole, fraction, none, hwhole, hfraction⟩, ?_, rfl, rfl, ?_⟩
  · simp [Spelling.text, Spelling.magnitude, scaleText]
  · rw [← Int.zero_sub] at h
    exact toBinary64_of_roundsTo negative hpos hrank h

/-- A whole number has its zeros written out, and possibly more behind a point. -/
theorem places_trailingZeros (hpos : 0 < rank) (hrank : rank < topRank) (hexponent : 0 ≤ exponent)
    (zeros : Nat) (h : gridPointRoundsTo rank exponent c = true) :
    SpellsPlaces zeros (signText negative ++ (decimalDigits c ++
      List.replicate exponent.toNat '0' ++ pointed (List.replicate zeros '0')))
      (magnitudeOf negative hrank) := by
  have hwhole : IsWhole (decimalDigits c ++ List.replicate exponent.toNat '0') :=
    isWhole_of_head? (ne_zero_of_roundsTo hpos h)
      (digits_append.mpr ⟨digits_decimalDigits c, digits_replicate_zero _⟩) (by
        rw [List.head?_append,
          Option.or_of_isSome (List.isSome_head?.mpr (decimalDigits_ne_nil c))])
  have hvalue : digitsValue (decimalDigits c ++ List.replicate exponent.toNat '0' ++
      List.replicate zeros '0') = c * 10 ^ (exponent.toNat + zeros) := by
    simp [Nat.pow_add]
    ring
  have hpoint : gridPointRoundsTo rank (-(zeros : Int)) (c * 10 ^ (exponent.toNat + zeros)) =
      true := by
    rw [gridPointRoundsTo_scale hpos, Int.toNat_of_nonneg hexponent, h]
  have hspells := places_of_parts negative hpos hrank hwhole (digits_replicate_zero zeros)
    (by rw [hvalue, List.length_replicate, hpoint])
  rwa [List.length_replicate] at hspells

/-- The point stands between two of the digits. -/
theorem places_pointWithin (hpos : 0 < rank) (hrank : rank < topRank) {places : Nat}
    (hplaces : 0 < places) (hsplit : places < (decimalDigits c).length)
    (h : gridPointRoundsTo rank (-places) c = true) :
    SpellsPlaces places (signText negative ++
      ((decimalDigits c).take ((decimalDigits c).length - places) ++
        '.' :: (decimalDigits c).drop ((decimalDigits c).length - places)))
      (magnitudeOf negative hrank) := by
  have hdigits := digits_decimalDigits c
  have hwhole : IsWhole ((decimalDigits c).take ((decimalDigits c).length - places)) :=
    isWhole_of_head? (ne_zero_of_roundsTo hpos h) (hdigits.take _)
      (by rw [List.head?_take, if_neg (by omega)])
  have hlength : ((decimalDigits c).drop ((decimalDigits c).length - places)).length = places := by
    rw [List.length_drop]
    omega
  have hfraction : (decimalDigits c).drop ((decimalDigits c).length - places) ≠ [] := by
    rw [← List.length_pos_iff, hlength]
    exact hplaces
  have hspells := places_of_parts negative hpos hrank hwhole (hdigits.drop _)
    (by rw [List.take_append_drop, digitsValue_decimalDigits, hlength, h])
  simpa [pointed, hfraction, hlength] using hspells

/-- All digits stand behind the point, with zeros in front. -/
theorem places_leadingZeros (hpos : 0 < rank) (hrank : rank < topRank) {places : Nat}
    (hsplit : (decimalDigits c).length ≤ places) (h : gridPointRoundsTo rank (-places) c = true) :
    SpellsPlaces places (signText negative ++
      '0' :: '.' :: List.replicate (places - (decimalDigits c).length) '0' ++ decimalDigits c)
      (magnitudeOf negative hrank) := by
  have hne := decimalDigits_ne_nil c
  have hlength : (List.replicate (places - (decimalDigits c).length) '0' ++
      decimalDigits c).length = places := by
    rw [List.length_append, List.length_replicate]
    omega
  have hspells := places_of_parts negative hpos hrank isWhole_zero
    (digits_append.mpr ⟨digits_replicate_zero (places - (decimalDigits c).length),
      digits_decimalDigits c⟩) (by
      rw [digitsValue_append, digitsValue_append, digitsValue_zero, digitsValue_replicate_zero,
        digitsValue_decimalDigits, hlength]
      simpa using h)
  simpa [pointed, hne, hlength] using hspells

/-- How many digits are behind the point if those of a grid are written in place, and whole numbers
are marked by so many zeros. -/
def placesBehind (zeros : Nat) (exponent : Int) : Nat :=
  if 0 ≤ exponent then zeros else (-exponent).toNat

/-- On a grid that is not finer than that of so many places no more of them are written. -/
theorem placesBehind_le {zeros places : Nat} (h : -(places : Int) ≤ exponent) :
    placesBehind zeros exponent ≤ max zeros places := by
  unfold placesBehind
  split <;> omega

/-- Digits that are written in place denote the number that their point rounds to. -/
theorem places_writePositional {style : RealStyle} {zeros : Nat}
    (hmark : style.wholeMark = pointed (List.replicate zeros '0')) (hpos : 0 < rank)
    (hrank : rank < topRank) (h : gridPointRoundsTo rank exponent c = true) :
    SpellsPlaces (placesBehind zeros exponent)
      (signText negative ++ style.writePositional (decimalDigits c) exponent)
      (magnitudeOf negative hrank) := by
  unfold RealStyle.writePositional placesBehind
  by_cases hexponent : 0 ≤ exponent
  · rw [if_pos hexponent, if_pos hexponent, hmark]
    exact places_trailingZeros negative hpos hrank hexponent zeros h
  · rw [if_neg hexponent, if_neg hexponent]
    extract_lets places
    have hpoint : gridPointRoundsTo rank (-places) c = true := by
      rwa [show -(places : Int) = exponent by omega]
    by_cases hsplit : places < (decimalDigits c).length
    · rw [if_pos hsplit]
      exact places_pointWithin negative hpos hrank (by omega) hsplit hpoint
    · rw [if_neg hsplit]
      simpa using places_leadingZeros negative hpos hrank (by omega) hpoint

theorem wholeMark_realStyle : realStyle.wholeMark = pointed (List.replicate 1 '0') := rfl

theorem spells_writePositional (hpos : 0 < rank) (hrank : rank < topRank)
    (h : gridPointRoundsTo rank exponent c = true) :
    Spells (signText negative ++ realStyle.writePositional (decimalDigits c) exponent)
      (magnitudeOf negative hrank) := by
  refine (places_writePositional negative wholeMark_realStyle hpos hrank h).spells ?_
  unfold placesBehind
  split <;> omega

theorem scaleText_some (e : Int) : scaleText (some e) =
    'e' :: (if e < 0 then '-' :: decimalDigits e.natAbs
      else realStyle.plusMark ++ decimalDigits e.natAbs) := by
  by_cases hneg : e < 0
  · simp [scaleText, hneg]
  · simp [scaleText, hneg, realStyle]

theorem spells_writeScientific (hpos : 0 < rank) (hrank : rank < topRank)
    (h : gridPointRoundsTo rank exponent c = true) :
    Spells (signText negative ++ realStyle.writeScientific (decimalDigits c)
      (exponent + (decimalDigits c).length - 1)) (magnitudeOf negative hrank) := by
  have hc := ne_zero_of_roundsTo hpos h
  have hdigits := digits_decimalDigits c
  have hlength := List.length_pos_iff.mpr (decimalDigits_ne_nil c)
  have hwhole : IsWhole ((decimalDigits c).take 1) :=
    isWhole_of_head? hc (hdigits.take 1) (by rw [List.head?_take, if_neg (by decide)])
  have hscale : exponent + (decimalDigits c).length - 1 - ((decimalDigits c).drop 1).length =
      exponent := by
    rw [List.length_drop]
    omega
  refine ⟨⟨negative, (decimalDigits c).take 1, (decimalDigits c).drop 1,
    some (exponent + (decimalDigits c).length - 1), hwhole, hdigits.drop 1⟩, ?_,
    .inr (Option.some_ne_none _), ?_⟩
  · rw [Spelling.text, Spelling.magnitude, scaleText_some]
    rfl
  · have hpoint : gridPointRoundsTo rank
        (exponent + (decimalDigits c).length - 1 - ((decimalDigits c).drop 1).length)
        (digitsValue ((decimalDigits c).take 1 ++ (decimalDigits c).drop 1)) = true := by
      rw [List.take_append_drop, digitsValue_decimalDigits, hscale, h]
    exact toBinary64_of_roundsTo negative hpos hrank hpoint

/-- A finite number is spelled with a point or an exponent, and its numeral denotes it. -/
theorem spells_write {x : Binary64} (hx : x.isFinite = true) : Spells (realStyle.write x) x := by
  cases x with
  | nan => cases hx
  | number negative rank =>
    have htop : rank.val ≠ topRank := by simpa [Binary64.isFinite] using hx
    have hrank : rank.val < topRank := by omega
    rw [RealStyle.write, if_neg htop]
    by_cases hzero : rank.val = 0
    · have hrank : rank = 0 := Fin.ext hzero
      rw [if_pos hzero, hrank]
      exact (places_zero negative wholeMark_realStyle).spells Nat.one_pos
    · have hpos := Nat.pos_of_ne_zero hzero
      have hround := gridPointRoundsTo_shortest realStyle.tie hpos
      rw [if_neg hzero, RealStyle.writeDecimal]
      generalize shortest realStyle.tie rank.val = decimal at hround
      show Spells (signText negative ++ _) (magnitudeOf negative hrank)
      split
      · exact spells_writePositional negative hpos hrank hround
      · exact spells_writeScientific negative hpos hrank hround

end Write

namespace Tree

/-- A finite number reads back. -/
theorem real?_real (x : Binary64) : (real x).real? = if x.isFinite then some x else none := by
  unfold real
  split
  · next hx =>
    obtain ⟨s, htext, -, hdenotes⟩ := spells_write hx
    simp [real?, htext, s.read?_text, hdenotes, hx]
  · rfl

/-- The numeral of a finite number is not that of a whole number. -/
theorem integer?_real (x : Binary64) : (real x).integer? = none := by
  unfold real
  split
  · next hx =>
    obtain ⟨s, htext, hreal, -⟩ := spells_write hx
    rw [htext, s.integer?_text hreal]
  · rfl

/-- A whole number reads back. -/
theorem integer?_integer (value : Int) : (integer value).integer? = some value := by
  have hall : (decimalDigits value.natAbs).all Char.isDigit = true :=
    List.all_eq_true.mpr (digits_decimalDigits _)
  unfold integer
  by_cases hneg : value < 0
  · generalize hn : value.natAbs = n at hall ⊢
    have hzero : n ≠ 0 := by omega
    simp [hneg, integer?, hall, hzero]
    omega
  · obtain ⟨c, cs, hcons⟩ := List.exists_cons_of_ne_nil (decimalDigits_ne_nil value.natAbs)
    have hminus : c ≠ '-' :=
      ne_of_isDigit (digits_decimalDigits value.natAbs c (by simp [hcons])) (by decide)
    have hvalue := digitsValue_decimalDigits value.natAbs
    rw [if_neg hneg, List.nil_append]
    rw [hcons] at hall hvalue ⊢
    unfold integer?
    split
    · next heq => exact absurd (List.cons.inj (numeral.inj heq)).1 hminus
    · next heq =>
      rw [← numeral.inj heq, hall, hvalue, if_pos rfl, Int.natAbs_of_nonneg (by omega)]
    · next heq => exact absurd rfl (heq _)

/-- A whole number that fits 64 bits keeps its kind. -/
theorem number?_integer {value : Int}
    (fits : -0x8000000000000000 ≤ value ∧ value < 0x10000000000000000) :
    (integer value).number? = some (.integer value fits) := by
  simp [number?, integer?_integer, fits]

/-- A finite number keeps its kind. -/
theorem number?_real {x : Binary64} (hx : x.isFinite = true) :
    (real x).number? = some (.real x hx) := by
  simp [number?, integer?_real, real?_real, hx]

end Tree

end ReleaseGate.Json
