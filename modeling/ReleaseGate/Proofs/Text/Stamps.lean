import ReleaseGate.Audit.Uuid
import ReleaseGate.Proofs.Text.Digits
import ReleaseGate.Time.Reader

/-!
# Identifiers and instants read back

Both are written in one form out of the several that are read.

* `Uuid.read?_text`: an identifier in groups of digits is itself.
* `Instant.read?_text`: an instant in RFC 3339 is itself, with its leap second, its nanoseconds and
  any year of the calendar.
* `Instant.fileStamp_eq_iff`: file names tell instants apart to the second.
-/

namespace ReleaseGate

/-! ## Identifiers -/

namespace Uuid

section Groups

variable {x y : List Char} {n : Nat}

theorem drop_group (h : x.length = n) : (x ++ '-' :: y).drop (n + 1) = y := by
  simp [← h, List.drop_append]

theorem getElem?_group (h : x.length = n) : (x ++ '-' :: y)[n]? = some '-' := by
  simp [← h]

/-- Digits in groups are the digits in a row. -/
theorem readGrouped?_groups {a b c d e : List Char} (ha : a.length = 8) (hb : b.length = 4)
    (hc : c.length = 4) (hd : d.length = 4) (he : e.length = 12) :
    readGrouped? (a ++ '-' :: (b ++ '-' :: (c ++ '-' :: (d ++ '-' :: e)))) =
      (hexNumber? (a ++ b ++ c ++ d ++ e)).map ofNat := by
  generalize htext : a ++ '-' :: (b ++ '-' :: (c ++ '-' :: (d ++ '-' :: e))) = text
  have h9 : text.drop 9 = b ++ '-' :: (c ++ '-' :: (d ++ '-' :: e)) := htext ▸ drop_group ha
  have h14 : text.drop 14 = c ++ '-' :: (d ++ '-' :: e) := by
    rw [show 14 = 9 + 5 from rfl, ← List.drop_drop, h9, drop_group hb]
  have h19 : text.drop 19 = d ++ '-' :: e := by
    rw [show 19 = 14 + 5 from rfl, ← List.drop_drop, h14, drop_group hc]
  have h24 : text.drop 24 = e := by
    rw [show 24 = 19 + 5 from rfl, ← List.drop_drop, h19, drop_group hd]
  have h8 : text[8]? = some '-' := htext ▸ getElem?_group ha
  have h13 : text[13]? = some '-' := by
    rw [show 13 = 9 + 4 from rfl, ← List.getElem?_drop, h9, getElem?_group hb]
  have h18 : text[18]? = some '-' := by
    rw [show 18 = 14 + 4 from rfl, ← List.getElem?_drop, h14, getElem?_group hc]
  have h23 : text[23]? = some '-' := by
    rw [show 23 = 19 + 4 from rfl, ← List.getElem?_drop, h19, getElem?_group hd]
  have htake : text.take 8 = a := htext ▸ List.take_left' ha
  simp [readGrouped?, h8, h13, h18, h23, h9, h14, h19, h24, htake, List.take_left' hb,
    List.take_left' hc, List.take_left' hd, ha, hb, hc, hd, he]

end Groups

/-- A row of digits in two parts, of a number that is shifted already. -/
theorem hexDigits_shifted (upper lower shift n : Nat) :
    hexDigits (upper + lower) (n / 2 ^ shift) =
      hexDigits upper (n / 2 ^ (shift + 4 * lower)) ++ hexDigits lower (n / 2 ^ shift) := by
  rw [hexDigits_add, Nat.div_div_eq_div_mul, Nat.pow_add, Nat.pow_mul]

/-- The groups of an identifier in a row are all of its digits. -/
theorem hexDigits_groups (n : Nat) :
    hexDigits 8 (n / 2 ^ 96) ++ hexDigits 4 (n / 2 ^ 80) ++ hexDigits 4 (n / 2 ^ 64) ++
      hexDigits 4 (n / 2 ^ 48) ++ hexDigits 12 n = hexDigits 32 n := by
  have h12 := hexDigits_shifted 20 12 0 n
  have h16 := hexDigits_shifted 16 4 48 n
  have h20 := hexDigits_shifted 12 4 64 n
  have h24 := hexDigits_shifted 8 4 80 n
  simp only [Nat.reduceAdd, Nat.reduceMul, Nat.pow_zero, Nat.div_one] at h12 h16 h20 h24
  rw [h12, h16, h20, h24]

/-- An identifier in groups of digits is itself. -/
theorem read?_text (id : Uuid) : read? id.text = some id := by
  have hlength : id.write.length = 36 := by simp [write]
  have hgroups := readGrouped?_groups (length_hexDigits 8 (id.bits.val / 2 ^ 96))
    (length_hexDigits 4 (id.bits.val / 2 ^ 80)) (length_hexDigits 4 (id.bits.val / 2 ^ 64))
    (length_hexDigits 4 (id.bits.val / 2 ^ 48)) (length_hexDigits 12 id.bits.val)
  have hbits : id.bits.val % 16 ^ 32 = id.bits.val := Nat.mod_eq_of_lt id.bits.isLt
  rw [hexDigits_groups, hexNumber?_hexDigits, hbits] at hgroups
  have hread : readGrouped? id.write = some id := by
    have hid : ofNat id.bits.val = id := by
      simp [ofNat, Nat.mod_eq_of_lt id.bits.isLt]
    rw [Option.map_some, hid] at hgroups
    rw [← hgroups]
    simp [write]
  rw [read?, text, String.toList_ofList]
  unfold readChars?
  rw [if_neg (by omega), if_neg (by omega), if_neg (by omega), hread]

end Uuid

/-! ## Instants -/

theorem trimLeft_cons {c : Char} (h : isBlankChar c = false) (text : List Char) :
    trimLeft (c :: text) = c :: text := by
  simp [trimLeft, h]

theorem isBlankChar_of_isDigit {c : Char} (h : c.isDigit = true) : isBlankChar c = false := by
  have hrange : 48 ≤ c.toNat ∧ c.toNat ≤ 57 := Char.isDigit_iff_toNat.mp h
  simp only [isBlankChar, blankRanges, List.any_cons, List.any_nil, Bool.or_false,
    Bool.or_eq_false_iff, Bool.and_eq_false_iff, decide_eq_false_iff_not]
  omega

theorem NoDigit.take {text : List Char} (h : NoDigit text) (n : Nat) : NoDigit (text.take n) := by
  cases text with
  | nil => simp
  | cons c rest =>
    cases n with
    | zero => simp
    | succ n => simpa using h

namespace Instant

section Parts

variable {digits rest : List Char}

theorem trimLeft_digits (hd : Digits digits) (hne : digits ≠ []) :
    trimLeft (digits ++ rest) = digits ++ rest := by
  obtain ⟨c, cs, rfl⟩ := List.exists_cons_of_ne_nil hne
  exact trimLeft_cons (isBlankChar_of_isDigit (hd c List.mem_cons_self)) _

theorem readNumber_append {width : Nat} (hd : Digits digits) (hne : digits ≠ [])
    (hwidth : digits.length ≤ width) (hr : NoDigit rest) :
    readNumber width (digits ++ rest) = some (digitsValue digits, rest) := by
  have htake : ((digits ++ rest).take width).takeWhile Char.isDigit = digits := by
    rw [List.take_append, List.take_of_length_le hwidth, takeWhile_isDigit hd (hr.take _)]
  simp [readNumber, trimLeft_digits hd hne, htake, hne]

/-- A number in two digits, up to the character behind it. -/
theorem readNumber_padDigits {width n : Nat} (hwidth : 0 < width) (hn : n < 10 ^ width)
    (hr : NoDigit rest) : readNumber width (padDigits width n ++ rest) = some (n, rest) := by
  rw [readNumber_append (digits_padDigits width n) (padDigits_ne_nil width n)
    (Nat.le_of_eq (length_padDigits hwidth hn)) hr, digitsValue_padDigits]

theorem readLong_append (hd : Digits digits) (hne : digits ≠ []) (hr : NoDigit rest) :
    readLong (digits ++ rest) = some (digitsValue digits, rest) := by
  simp [readLong, takeWhile_isDigit hd hr, hne]

theorem readYear_yearText (year : Int) (hr : NoDigit rest) :
    readYear (yearText year ++ rest) = some (year, rest) := by
  have hlong := readLong_append (digits_padDigits 4 year.natAbs) (padDigits_ne_nil 4 year.natAbs) hr
  rw [digitsValue_padDigits] at hlong
  unfold yearText
  by_cases hfour : 0 ≤ year ∧ year ≤ 9999
  · rw [if_pos hfour]
    have hnumber := readNumber_padDigits (n := year.toNat) (by decide : 0 < 4) (by omega) hr
    have hdigits := digits_padDigits 4 year.toNat
    have hne := padDigits_ne_nil 4 year.toNat
    unfold readYear
    rw [trimLeft_digits hdigits hne]
    obtain ⟨c, cs, hcons⟩ := List.exists_cons_of_ne_nil hne
    have hc : c.isDigit = true := hdigits c (by simp [hcons])
    split
    · next heq =>
      rw [hcons] at heq
      exact absurd hc (by rw [(List.cons.inj heq).1]; decide)
    · next heq =>
      rw [hcons] at heq
      exact absurd hc (by rw [(List.cons.inj heq).1]; decide)
    · rw [hnumber]
      simp
      omega
  · rw [if_neg hfour]
    generalize hn : year.natAbs = n at hlong ⊢
    by_cases hneg : year < 0
    · have hblank : isBlankChar '-' = false := by decide
      simp [readYear, hneg, trimLeft_cons hblank, hlong]
      omega
    · have hblank : isBlankChar '+' = false := by decide
      simp [readYear, hneg, trimLeft_cons hblank, hlong]
      omega

theorem expect_cons {c : Char} (h : isBlankChar c = false) : expect c (c :: rest) = some rest := by
  simp [expect, trimLeft_cons h]

theorem readFraction_padDigits {width n : Nat} (hwidth : 0 < width) (hnine : width ≤ 9)
    (hn : n < 10 ^ width) (hr : NoDigit rest) :
    readFraction ('.' :: (padDigits width n ++ rest)) = some (n * 10 ^ (9 - width), rest) := by
  have hd := digits_padDigits width n
  have hlength := length_padDigits hwidth hn
  have htake : (padDigits width n).take 9 = padDigits width n :=
    List.take_of_length_le (by omega)
  simp [readFraction, takeWhile_isDigit hd hr, padDigits_ne_nil, htake, hlength]

theorem readFraction_fractionText (nano : Fin 1000000000) :
    readFraction (fractionText nano ++ ['Z']) = some (nano.val, ['Z']) := by
  have hz : NoDigit ['Z'] := by simp
  have hlt := nano.isLt
  unfold fractionText
  by_cases hzero : nano.val = 0
  · simp [hzero, readFraction]
  · rw [if_neg hzero]
    by_cases hmilli : nano.val % 1000000 = 0
    · rw [if_pos hmilli, List.cons_append,
        readFraction_padDigits (by decide) (by decide) (by omega) hz]
      simp
      omega
    · rw [if_neg hmilli]
      by_cases hmicro : nano.val % 1000 = 0
      · rw [if_pos hmicro, List.cons_append,
          readFraction_padDigits (by decide) (by decide) (by omega) hz]
        simp
        omega
      · rw [if_neg hmicro, List.cons_append,
          readFraction_padDigits (by decide) (by decide) (by omega) hz]
        simp

end Parts

/-- Months and days have two digits at most. -/
theorem lt_of_isDate {year : Int} {month day : Nat} (h : IsDate year month day) :
    month < 100 ∧ day < 100 := by
  obtain ⟨-, -, hday, hle⟩ := h
  unfold daysInMonth at hle
  split at hle
  · split at hle <;> omega
  all_goals omega

theorem noDigit_fractionText (nano : Nat) : NoDigit (fractionText nano ++ ['Z']) := by
  unfold fractionText
  split
  · simp
  · split
    · simp
    · split <;> simp

/-- An instant in UTC is the local one of its zone. -/
theorem ofLocal?_utc (instant : Instant) :
    ofLocal? instant.date (instant.minute / 60) (instant.minute % 60) instant.second instant.nano
      0 = some instant := by
  obtain ⟨date, minute, second, nano⟩ := instant
  have hclock : minute.val / 60 < 24 ∧ minute.val % 60 < 60 := by omega
  have hminutes : 60 * ((minute.val : Int) / 60) + (minute.val : Int) % 60 = minute.val := by omega
  have hday : (minute.val : Int) / 1440 = 0 := by omega
  have hminute : ((minute.val : Int) % 1440).toNat = minute.val := by omega
  simp [ofLocal?, hclock, hminutes, hday, hminute, Date.shift?]

/-- An instant in RFC 3339 is itself. -/
theorem read?_text (instant : Instant) : read? instant.text = some instant := by
  have hdate := instant.date.isDate
  obtain ⟨hmonth, hday⟩ := lt_of_isDate hdate
  have hhour : instant.minute.val / 60 < 100 := by omega
  have hminute : instant.minute.val % 60 < 100 := by omega
  have hsecond : instant.second.val < 100 := by omega
  have hof : Date.of? instant.date.year instant.date.month instant.date.day = some instant.date :=
    dif_pos hdate
  have hdash : isBlankChar '-' = false := by decide
  have hcolon : isBlankChar ':' = false := by decide
  have hzone : trimLeft ['Z'] = ['Z'] := trimLeft_cons (by decide) _
  have hdigit : ∀ (c : Char) (rest : List Char), c.isDigit = false → NoDigit (c :: rest) :=
    fun c rest hc => noDigit_cons.mpr hc
  rw [read?, text, String.toList_ofList, write]
  simp only [List.append_assoc, List.cons_append]
  -- One step for each part of the text, in the order of the reader.
  refine Option.bind_eq_some_iff.mpr ⟨_, readYear_yearText _ (hdigit _ _ rfl), ?_⟩
  refine Option.bind_eq_some_iff.mpr ⟨_, expect_cons hdash, ?_⟩
  refine Option.bind_eq_some_iff.mpr
    ⟨_, readNumber_padDigits (by decide) hmonth (hdigit _ _ rfl), ?_⟩
  refine Option.bind_eq_some_iff.mpr ⟨_, expect_cons hdash, ?_⟩
  refine Option.bind_eq_some_iff.mpr ⟨_, readNumber_padDigits (by decide) hday (hdigit _ _ rfl), ?_⟩
  refine Option.bind_eq_some_iff.mpr
    ⟨_, readNumber_padDigits (by decide) hhour (hdigit _ _ rfl), ?_⟩
  refine Option.bind_eq_some_iff.mpr ⟨_, expect_cons hcolon, ?_⟩
  refine Option.bind_eq_some_iff.mpr
    ⟨_, readNumber_padDigits (by decide) hminute (hdigit _ _ rfl), ?_⟩
  refine Option.bind_eq_some_iff.mpr ⟨_, expect_cons hcolon, ?_⟩
  refine Option.bind_eq_some_iff.mpr
    ⟨_, readNumber_padDigits (by decide) hsecond (noDigit_fractionText _), ?_⟩
  refine Option.bind_eq_some_iff.mpr ⟨_, readFraction_fractionText _, ?_⟩
  refine Option.bind_eq_some_iff.mpr ⟨(0, []), by rw [hzone]; rfl, ?_⟩
  refine Option.bind_eq_some_iff.mpr ⟨_, hof, ?_⟩
  exact ofLocal?_utc instant

/-! ### File names -/

section FileStamp

variable {t u : Instant}

/-- Two instants within one second. -/
def SameSecond (t u : Instant) : Prop :=
  t.date = u.date ∧ t.minute = u.minute ∧ t.second = u.second

instance (t u : Instant) : Decidable (t.SameSecond u) := inferInstanceAs (Decidable (_ ∧ _))

theorem SameSecond.refl (t : Instant) : t.SameSecond t := ⟨rfl, rfl, rfl⟩

theorem yearText_injective : Function.Injective yearText := by
  intro year year' h
  have hnone : NoDigit [] := by simp [NoDigit]
  have hread := readYear_yearText year hnone
  rw [h, readYear_yearText year' hnone] at hread
  exact (Prod.mk.inj (Option.some.inj hread)).1.symm

theorem padDigits_append_inj {width m n : Nat} (hwidth : 0 < width) (hm : m < 10 ^ width)
    (hn : n < 10 ^ width) {rest rest' : List Char}
    (h : padDigits width m ++ rest = padDigits width n ++ rest') : m = n ∧ rest = rest' := by
  obtain ⟨hdigits, hrest⟩ := List.append_inj h
    ((length_padDigits hwidth hm).trans (length_padDigits hwidth hn).symm)
  have hvalue := congrArg digitsValue hdigits
  rw [digitsValue_padDigits, digitsValue_padDigits] at hvalue
  exact ⟨hvalue, hrest⟩

/-- What follows the year in a file name. -/
def stampTail (t : Instant) : List Char :=
  padDigits 2 t.date.month ++ (padDigits 2 t.date.day ++ '_' :: (padDigits 2 (t.minute / 60) ++
    (padDigits 2 (t.minute % 60) ++ (padDigits 2 t.second ++ []))))

theorem toList_fileStamp (t : Instant) :
    t.fileStamp.toList = yearText t.date.year ++ t.stampTail := by
  simp [fileStamp, stampTail]

/-- All numbers behind the year have two digits. -/
structure TwoDigits (t : Instant) : Prop where
  month : t.date.month < 10 ^ 2
  day : t.date.day < 10 ^ 2
  hour : t.minute.val / 60 < 10 ^ 2
  minute : t.minute.val % 60 < 10 ^ 2
  second : t.second.val < 10 ^ 2

theorem twoDigits (t : Instant) : t.TwoDigits := by
  obtain ⟨hmonth, hday⟩ := lt_of_isDate t.date.isDate
  constructor <;> omega

theorem length_stampTail (t : Instant) : t.stampTail.length = 11 := by
  have h := t.twoDigits
  simp [stampTail, length_padDigits Nat.two_pos h.month, length_padDigits Nat.two_pos h.day,
    length_padDigits Nat.two_pos h.hour, length_padDigits Nat.two_pos h.minute,
    length_padDigits Nat.two_pos h.second]

/-- File names tell instants apart to the second. The year may be of any length, and what follows it
has always eleven characters. -/
theorem fileStamp_eq_iff : t.fileStamp = u.fileStamp ↔ t.SameSecond u := by
  constructor
  · intro h
    have hchars : yearText t.date.year ++ t.stampTail = yearText u.date.year ++ u.stampTail := by
      rw [← toList_fileStamp, ← toList_fileStamp, h]
    obtain ⟨hyear, htail⟩ := List.append_inj' hchars
      ((length_stampTail t).trans (length_stampTail u).symm)
    have ht := t.twoDigits
    have hu := u.twoDigits
    obtain ⟨hmonth, htail⟩ := padDigits_append_inj Nat.two_pos ht.month hu.month htail
    obtain ⟨hday, htail⟩ := padDigits_append_inj Nat.two_pos ht.day hu.day htail
    obtain ⟨hhour, htail⟩ :=
      padDigits_append_inj Nat.two_pos ht.hour hu.hour (List.cons.inj htail).2
    obtain ⟨hminute, htail⟩ := padDigits_append_inj Nat.two_pos ht.minute hu.minute htail
    obtain ⟨hsecond, -⟩ := padDigits_append_inj Nat.two_pos ht.second hu.second htail
    refine ⟨?_, Fin.ext (by omega), Fin.ext hsecond⟩
    have hyear := yearText_injective hyear
    obtain ⟨⟨year, month, day, _⟩, _, _, _⟩ := t
    obtain ⟨⟨year', month', day', _⟩, _, _, _⟩ := u
    cases hyear
    cases hmonth
    cases hday
    rfl
  · rintro ⟨hdate, hminute, hsecond⟩
    rw [fileStamp, fileStamp, hdate, hminute, hsecond]

end FileStamp

end Instant

end ReleaseGate
