import Mathlib.Algebra.Group.Nat.Defs
import ReleaseGate.Text.Hexadecimal
import ReleaseGate.Time.Instant

/-!
# Rows of digits

What is read from digits is the number that they were written for, in decimal and in hexadecimal,
with and without zeros in front.

* `takeWhile_isDigit`, `dropWhile_isDigit`: a row of digits ends where the text goes on otherwise.
* `digitsValue_decimalDigits`, `digitsValue_padDigits`: reading decimal digits.
* `hexNumber?_hexDigits`: reading hexadecimal digits.
-/

namespace ReleaseGate

/-! ## Decimal digits -/

/-- All characters are decimal digits. -/
def Digits (cs : List Char) : Prop := ∀ c ∈ cs, c.isDigit = true

/-- The text does not go on with a decimal digit. -/
def NoDigit (text : List Char) : Prop := ∀ c ∈ text.head?, c.isDigit = false

@[simp] theorem noDigit_nil : NoDigit [] := by simp [NoDigit]

@[simp] theorem noDigit_cons {c : Char} {rest : List Char} :
    NoDigit (c :: rest) ↔ c.isDigit = false := by simp [NoDigit]

@[simp] theorem digits_nil : Digits [] := by simp [Digits]

@[simp] theorem digits_cons {c : Char} {cs : List Char} :
    Digits (c :: cs) ↔ c.isDigit = true ∧ Digits cs := by simp [Digits]

@[simp] theorem digits_append {cs ds : List Char} :
    Digits (cs ++ ds) ↔ Digits cs ∧ Digits ds := List.forall_mem_append

theorem Digits.take {cs : List Char} (h : Digits cs) (n : Nat) : Digits (cs.take n) :=
  fun c hc => h c (List.mem_of_mem_take hc)

theorem Digits.drop {cs : List Char} (h : Digits cs) (n : Nat) : Digits (cs.drop n) :=
  fun c hc => h c (List.mem_of_mem_drop hc)

theorem digits_replicate_zero (n : Nat) : Digits (List.replicate n '0') := by
  intro c hc
  rw [List.eq_of_mem_replicate hc]
  decide

theorem digits_decimalDigits (n : Nat) : Digits (decimalDigits n) := fun _ hc =>
  Nat.isDigit_of_mem_toDigits (by decide) (by decide) hc

section Span

variable {digits rest : List Char}

theorem takeWhile_isDigit (hd : Digits digits) (hr : NoDigit rest) :
    (digits ++ rest).takeWhile Char.isDigit = digits := by
  rw [List.takeWhile_append_of_pos hd]
  cases rest with
  | nil => simp
  | cons c rest => simp [noDigit_cons.mp hr]

theorem dropWhile_isDigit (hd : Digits digits) (hr : NoDigit rest) :
    (digits ++ rest).dropWhile Char.isDigit = rest := by
  rw [List.dropWhile_append_of_pos hd]
  cases rest with
  | nil => simp
  | cons c rest => simp [noDigit_cons.mp hr]

end Span

theorem digitsValue_eq (digits : List Char) : digitsValue digits = Nat.ofDigitChars 10 digits 0 :=
  Nat.ofDigitChars_eq_foldl.symm

@[simp] theorem digitsValue_append (a b : List Char) :
    digitsValue (a ++ b) = 10 ^ b.length * digitsValue a + digitsValue b := by
  rw [digitsValue_eq, digitsValue_eq, digitsValue_eq, Nat.ofDigitChars_append,
    Nat.ofDigitChars_eq_ofDigitChars_zero]

@[simp] theorem digitsValue_decimalDigits (n : Nat) : digitsValue (decimalDigits n) = n := by
  rw [digitsValue_eq, decimalDigits, Nat.ofDigitChars_ten_toDigits]

@[simp] theorem digitsValue_replicate_zero (n : Nat) :
    digitsValue (List.replicate n '0') = 0 := by
  rw [digitsValue_eq, Nat.ofDigitChars_replicate_zero, Nat.mul_zero]

@[simp] theorem digitsValue_zero : digitsValue ['0'] = 0 := rfl

theorem decimalDigits_ne_nil (n : Nat) : decimalDigits n ≠ [] := Nat.toDigits_ne_nil

/-- The digits of a number above zero do not start with a zero. -/
theorem head?_decimalDigits_ne_zero {n : Nat} (hn : n ≠ 0) :
    (decimalDigits n).head? ≠ some '0' := by
  induction n using Nat.strongRecOn with
  | ind n ih =>
    unfold decimalDigits
    rw [Nat.toDigits_eq_if (by decide)]
    split
    · simpa using hn
    · have hhead := ih (n / 10) (by omega) (by omega)
      rwa [List.head?_append, Option.or_of_isSome (List.isSome_head?.mpr Nat.toDigits_ne_nil)]

/-- A number above zero has no more digits than the powers of ten up to it. -/
theorem ten_pow_le_of_decimalDigits {n : Nat} (hn : n ≠ 0) :
    10 ^ ((decimalDigits n).length - 1) ≤ n := by
  rcases Nat.eq_zero_or_pos ((decimalDigits n).length - 1) with hone | hmore
  · rw [hone]
    exact Nat.pos_of_ne_zero hn
  · refine Nat.le_of_not_lt fun hless => ?_
    have hle : (decimalDigits n).length ≤ (decimalDigits n).length - 1 :=
      (Nat.length_toDigits_le_iff (by decide) hmore).mpr hless
    omega

/-! ## Zeros in front -/

theorem digits_padDigits (width n : Nat) : Digits (padDigits width n) :=
  digits_append.mpr ⟨digits_replicate_zero _, digits_decimalDigits n⟩

@[simp] theorem digitsValue_padDigits (width n : Nat) : digitsValue (padDigits width n) = n := by
  simp [padDigits]

theorem length_padDigits {width n : Nat} (hwidth : 0 < width) (hn : n < 10 ^ width) :
    (padDigits width n).length = width := by
  have hle : (decimalDigits n).length ≤ width :=
    (Nat.length_toDigits_le_iff (by decide) hwidth).mpr hn
  simp only [padDigits, List.length_append, List.length_replicate]
  omega

theorem padDigits_ne_nil (width n : Nat) : padDigits width n ≠ [] := by
  simp [padDigits, decimalDigits_ne_nil]

/-! ## Hexadecimal digits -/

theorem hexValue?_hexDigit (n : Nat) : hexValue? (hexDigit n) = some (n % 16) := by
  have hall : ∀ k < 16, hexValue? (Nat.digitChar k) = some k := by decide
  exact hall (n % 16) (Nat.mod_lt n (by decide))

/-- The number of hexadecimal digits is the part of the number that they were written for. -/
theorem hexNumber?_hexDigits (width n : Nat) :
    hexNumber? (hexDigits width n) = some (n % 16 ^ width) := by
  induction width generalizing n with
  | zero => simp [hexDigits, hexNumber?, Nat.mod_one]
  | succ width ih =>
    have ih' := ih (n / 16)
    unfold hexNumber? at ih' ⊢
    rw [hexDigits, List.foldlM_append, ih']
    simp only [Option.bind_eq_bind, Option.bind_some, List.foldlM_cons, List.foldlM_nil,
      hexValue?_hexDigit, Option.map_some, Option.pure_def, Option.some.injEq]
    rw [Nat.pow_succ', Nat.mod_mul]
    omega

/-- A row of digits is the row of its upper digits and the row of its lower ones. -/
theorem hexDigits_add (upper lower n : Nat) :
    hexDigits (upper + lower) n = hexDigits upper (n / 16 ^ lower) ++ hexDigits lower n := by
  induction lower generalizing n with
  | zero => simp [hexDigits]
  | succ lower ih =>
    rw [← Nat.add_assoc, hexDigits, hexDigits, ih, Nat.pow_succ', Nat.div_div_eq_div_mul,
      List.append_assoc]

end ReleaseGate
