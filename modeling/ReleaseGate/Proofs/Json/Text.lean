import ReleaseGate.Json.Reader
import ReleaseGate.Json.Writer
import ReleaseGate.Proofs.Text.Digits

/-!
# Strings read back

A string in quotes holds, for each character, the character itself or its escape. The reader takes
each of them as one part, and the parts join to the same characters.

* `readParts_escape`: what stands for a character is read as one part.
* `joinParts_map_partOf`: the parts of a text join to it.
* `readString_escaped`: a string behind its opening quote reads back.
-/

namespace ReleaseGate.Json

/-- The part that is read for a character: a control without a letter of its own is escaped by its
number. -/
def partOf (c : Char) : StringPart :=
  if c.toNat < 0x20 ∧ c ∉ ['\x08', '\x0c', '\n', '\r', '\t'] then .unit c.toNat else .char c

section Parts

variable (text : List Char)

theorem readParts_letter {e c : Char} (hunit : e ≠ 'u') (h : simpleEscape? e = some c) :
    readParts ('\\' :: e :: text) = (readParts text).map fun r => (.char c :: r.1, r.2) := by
  rw [readParts]
  · simp only [h]
    cases readParts text <;> rfl
  · intro a b c d rest heq
    exact absurd heq hunit

theorem readParts_number {n : Nat} (h : n < 0x20) :
    readParts ('\\' :: 'u' :: '0' :: '0' :: hexDigit (n / 16) :: hexDigit n :: text) =
      (readParts text).map fun r => (.unit n :: r.1, r.2) := by
  have hall : ∀ k < 0x20, hexNumber? ['0', '0', hexDigit (k / 16), hexDigit k] = some k := by
    decide
  simp only [readParts, hall n h]
  cases readParts text <;> rfl

theorem readParts_plain {c : Char} (hquote : c ≠ '"') (hslash : c ≠ '\\')
    (hplain : ¬ c.toNat < 0x20) :
    readParts (c :: text) = (readParts text).map fun r => (.char c :: r.1, r.2) := by
  rw [readParts]
  · simp only [hplain, hslash, or_self, if_false]
    cases readParts text <;> rfl
  · exact hquote
  · intro a b c d rest heq
    exact absurd heq hslash
  · intro e rest heq
    exact absurd heq hslash

/-- What stands for a character in quotes is read as one part. -/
theorem readParts_escape (c : Char) :
    readParts (escape c ++ text) = (readParts text).map fun r => (partOf c :: r.1, r.2) := by
  unfold escape
  split
  case h_8 hquote hslash hb hf hn hr ht =>
    split
    · next hcontrol =>
      have hpart : partOf c = .unit c.toNat := by
        unfold partOf
        rw [if_pos]
        simp only [List.mem_cons, List.not_mem_nil, not_or, or_false]
        exact ⟨hcontrol, hb, hf, hn, hr, ht⟩
      rw [hpart]
      exact readParts_number text hcontrol
    · next hplain =>
      have hpart : partOf c = .char c := by simp [partOf, hplain]
      rw [hpart]
      exact readParts_plain text hquote hslash hplain
  all_goals exact readParts_letter text (by decide) rfl

end Parts

theorem joinParts_char (c : Char) (parts : List StringPart) :
    joinParts (.char c :: parts) = (joinParts parts).map (c :: ·) := rfl

/-- A unit below the surrogates is a character by itself. -/
theorem joinParts_unit {value : Nat} (h : value < 0xD800) (parts : List StringPart) :
    joinParts (.unit value :: parts) = (joinParts parts).map (Char.ofNat value :: ·) := by
  have hhigh : ¬ (0xD800 ≤ value ∧ value < 0xDC00) := by omega
  have hlow : ¬ (0xDC00 ≤ value ∧ value < 0xE000) := by omega
  have hnone : ¬ (0xD800 ≤ value ∧ value < 0xE000) := by omega
  cases parts with
  | nil => simp [joinParts, hnone]
  | cons part parts =>
    cases part with
    | char c => simp [joinParts, hnone]
    | unit low => simp [joinParts, hhigh, hlow]

/-- The parts of a text join to it. -/
theorem joinParts_map_partOf (cs : List Char) : joinParts (cs.map partOf) = some cs := by
  induction cs with
  | nil => rfl
  | cons c cs ih =>
    rw [List.map_cons, partOf]
    split
    · next hcontrol =>
      rw [joinParts_unit (by omega), ih, Char.ofNat_toNat]
      rfl
    · rw [joinParts_char, ih]
      rfl

theorem readParts_escaped (cs rest : List Char) :
    readParts (cs.flatMap escape ++ '"' :: rest) = some (cs.map partOf, rest) := by
  induction cs with
  | nil => simp [readParts]
  | cons c cs ih => simp [readParts_escape, ih]

/-- A string behind its opening quote reads back, up to its closing quote. -/
theorem readString_escaped (content : String) (rest : List Char) :
    readString (content.toList.flatMap escape ++ '"' :: rest) = some (some content, rest) := by
  simp [readString, readParts_escaped, joinParts_map_partOf]

end ReleaseGate.Json
