import Mathlib.Algebra.Group.Nat.Defs
import ReleaseGate.Proofs.Json.Scan

/-!
# What a hash covers

The bytes that an event's hash covers have no length fields. They still determine the trail, the
place, the hash before it and the record's text: the text of a record never ends with the text of
another one, and what stands before it has fixed lengths but for the trail.

* `json_eq_of_isSuffix`: a record's text is no proper suffix of another record's.
* `hashInput_inj`: bytes that are covered come from one trail, place, hash and record text.
* `digest_eq_of_hashEvent_eq`: equal hashes are equal digests.
-/

namespace ReleaseGate

open Json

/-! ## Texts of records -/

namespace EvaluationRecord

/-- Scanning the bytes of a record's text is reading its characters. -/
theorem run_json (s : Scan) (r : EvaluationRecord) :
    s.run (utf8 r.json) = s.read (Tree.ofContent r.content).compact := by
  rw [json, compactText, utf8_ofList]
  rfl

/-- The first field of a record is its identifier, and it has more. -/
private theorem exists_content_eq (r : EvaluationRecord) : ∃ value next rest,
    r.content = .record (("evaluation_id", value) :: next :: rest) :=
  ⟨_, _, _, rfl⟩

/-- A scan that meets a record's text inside a string is lost behind the first quote. -/
private theorem read_quote_key (depth : Nat) :
    ((Scan.inText depth).step '\x7b').read (quote "evaluation_id") = .lost := rfl

/-- A record's text is no proper suffix of another record's. -/
theorem json_eq_of_isSuffix {r r' : EvaluationRecord} (h : utf8 r.json <:+ utf8 r'.json) :
    r.json = r'.json := by
  obtain ⟨value, next, rest, hcontent⟩ := exists_content_eq r
  obtain ⟨value', next', rest', hcontent'⟩ := exists_content_eq r'
  have hlost : ∀ s : Scan, (s.step '\x7b').read (quote "evaluation_id") = .lost →
      s.run (utf8 r.json) = .lost := by
    intro s hs
    obtain ⟨key, field⟩ := next
    rw [run_json, hcontent, Tree.ofContent, Tree.compact, Scan.read_cons (by decide), Tree.ofFields,
      Tree.ofFields, Tree.compactFields, List.append_assoc, Scan.read_append, Tree.writeString,
      Option.getD_some, hs]
    exact Scan.run_lost _
  have hbytes : utf8 r'.json = UInt8.ofNat '\x7b'.toNat ::
      (Tree.compactFields (Tree.ofFields (("evaluation_id", value') :: next' :: rest'))).flatMap
        String.utf8EncodeChar := by
    rw [json, compactText, utf8_ofList, hcontent', Tree.ofContent, Tree.compact, List.flatMap_cons,
      utf8EncodeChar_of_ascii (by decide)]
    rfl
  rw [hbytes] at h
  apply utf8_injective
  rw [hbytes]
  refine Scan.eq_of_isSuffix (fun depth => ?_) (fun depth => hlost _ (read_quote_key depth))
    (fun depth => hlost _ (read_quote_key depth)) (Scan.read_compactFields 0 _) h
  rw [run_json]
  exact Scan.read_compact depth r.content

end EvaluationRecord

/-! ## Places in a chain -/

namespace Sha256

/-- Numbers below `256 ^ count` are known from their bytes. -/
theorem bigEndian_inj {count a b : Nat} (ha : a < 256 ^ count) (hb : b < 256 ^ count)
    (h : bigEndian count a = bigEndian count b) : a = b := by
  induction count generalizing a b with
  | zero => omega
  | succ count ih =>
    rw [bigEndian, bigEndian] at h
    obtain ⟨hhigh, hlow⟩ := List.append_inj' h rfl
    rw [Nat.pow_succ] at ha hb
    have hdiv : a / 256 = b / 256 :=
      ih (Nat.div_lt_of_lt_mul (by omega)) (Nat.div_lt_of_lt_mul (by omega)) hhigh
    have hmod : (UInt8.ofNat a).toNat = (UInt8.ofNat b).toNat := by
      rw [(List.cons.inj hlow).1]
    rw [UInt8.toNat_ofNat', UInt8.toNat_ofNat'] at hmod
    omega

end Sha256

theorem length_sequenceBytes (sequence : UInt64) : (sequenceBytes sequence).length = 8 := by
  rw [sequenceBytes, List.length_reverse, Sha256.length_bigEndian]

/-- A place is known from its bytes. -/
theorem sequenceBytes_injective : Function.Injective sequenceBytes := by
  intro a b h
  have ha : a.toNat < 256 ^ 8 := a.toNat_lt
  have hb : b.toNat < 256 ^ 8 := b.toNat_lt
  exact UInt64.toNat_inj.mp (Sha256.bigEndian_inj ha hb (List.reverse_inj.mp h))

/-! ## Hashes -/

/-- A byte is known from its two hexadecimal digits. -/
private theorem byte_eq_of_hexDigits_eq {x y : UInt8}
    (h : hexDigits 2 x.toNat = hexDigits 2 y.toNat) : x = y := by
  have hdigit : ∀ i < 16, ∀ j < 16, Nat.digitChar i = Nat.digitChar j → i = j := by decide
  obtain ⟨hhigh, hlow⟩ : hexDigit (x.toNat / 16) = hexDigit (y.toNat / 16) ∧
      hexDigit x.toNat = hexDigit y.toNat := by
    simpa [hexDigits] using h
  have hx := x.toNat_lt
  have hy := y.toNat_lt
  have hdiv := hdigit _ (Nat.mod_lt _ (by decide)) _ (Nat.mod_lt _ (by decide)) hhigh
  have hmod := hdigit _ (Nat.mod_lt _ (by decide)) _ (Nat.mod_lt _ (by decide)) hlow
  refine UInt8.toNat_inj.mp ?_
  omega

/-- Bytes are known from their hexadecimal digits. -/
theorem hexOfBytes_injective : Function.Injective hexOfBytes := by
  intro a b h
  have hlength : a.length = b.length := by
    have hdigits := congrArg List.length h
    rw [length_hexOfBytes, length_hexOfBytes] at hdigits
    omega
  induction a generalizing b with
  | nil => exact (List.eq_nil_of_length_eq_zero hlength.symm).symm
  | cons x xs ih =>
    obtain ⟨y, ys, rfl⟩ := List.exists_cons_of_length_eq_add_one hlength.symm
    obtain ⟨hxy, hrest⟩ : hexDigits 2 x.toNat = hexDigits 2 y.toNat ∧
        hexOfBytes xs = hexOfBytes ys :=
      List.append_inj h (by rw [length_hexDigits, length_hexDigits])
    rw [byte_eq_of_hexDigits_eq hxy, ih hrest (by simpa using hlength)]

/-- Equal hashes are equal digests of what they cover. -/
theorem digest_eq_of_hashEvent_eq {trail trail' : String} {sequence sequence' : UInt64}
    {record record' : EvaluationRecord} {prev prev' : String}
    (h : hashEvent trail sequence record prev = hashEvent trail' sequence' record' prev') :
    Sha256.digest (hashInput trail sequence record prev) =
      Sha256.digest (hashInput trail' sequence' record' prev') :=
  hexOfBytes_injective (String.ofList_injective h)

/-- Hexadecimal digits are below 128. -/
private theorem toNat_hexOfBytes_lt (bytes : List UInt8) :
    ∀ c ∈ hexOfBytes bytes, c.toNat < 128 := by
  have hdigit : ∀ i < 16, (Nat.digitChar i).toNat < 128 := by decide
  intro c hc
  obtain ⟨b, -, hb⟩ := List.mem_flatMap.mp hc
  have hmem : c = hexDigit (b.toNat / 16) ∨ c = hexDigit b.toNat := by
    simpa [hexDigits] using hb
  rcases hmem with rfl | rfl <;> exact hdigit _ (Nat.mod_lt _ (by decide))

/-- A hash has 64 bytes. -/
theorem length_utf8_hashEvent (trail : String) (sequence : UInt64) (record : EvaluationRecord)
    (prev : String) : (utf8 (hashEvent trail sequence record prev)).length = 64 := by
  rw [hashEvent, length_utf8_of_ascii (toNat_hexOfBytes_lt _), length_hexOfBytes,
    Sha256.length_digest]

theorem length_utf8_genesisHash : (utf8 genesisHash).length = 64 := by
  have hzeros : ∀ c ∈ List.replicate 64 '0', c.toNat < 128 := by
    intro c hc
    rw [List.eq_of_mem_replicate hc]
    decide
  exact (length_utf8_of_ascii hzeros).trans List.length_replicate

/-! ## Covered bytes -/

/-- Bytes that a hash covers come from one trail, place, hash before it and record text, if the
hashes before it have 64 bytes. -/
theorem hashInput_inj {trail trail' : String} {sequence sequence' : UInt64}
    {record record' : EvaluationRecord} {prev prev' : String}
    (hprev : (utf8 prev).length = 64) (hprev' : (utf8 prev').length = 64)
    (h : hashInput trail sequence record prev = hashInput trail' sequence' record' prev') :
    trail = trail' ∧ sequence = sequence' ∧ prev = prev' ∧ record.json = record'.json := by
  have hjson : record.json = record'.json := by
    have hsuffix : utf8 record'.json <:+ hashInput trail sequence record prev :=
      h ▸ List.suffix_append _ _
    rcases List.suffix_or_suffix_of_suffix (List.suffix_append _ _) hsuffix with h' | h'
    · exact EvaluationRecord.json_eq_of_isSuffix h'
    · exact (EvaluationRecord.json_eq_of_isSuffix h').symm
  rw [hashInput, hashInput, hjson] at h
  obtain ⟨hhead, hprevs⟩ := List.append_inj' (List.append_cancel_right h) (by rw [hprev, hprev'])
  obtain ⟨htrail, hsequence⟩ := List.append_inj' hhead
    (by rw [length_sequenceBytes, length_sequenceBytes])
  exact ⟨utf8_injective htrail, sequenceBytes_injective hsequence, utf8_injective hprevs, hjson⟩

end ReleaseGate
