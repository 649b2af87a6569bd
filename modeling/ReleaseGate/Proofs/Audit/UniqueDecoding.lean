import ReleaseGate.Proofs.Audit.HashInput
import ReleaseGate.Proofs.Json.Records
import ReleaseGate.Time.Epoch

/-!
# Unique decoding

The bytes that a hash covers can be decoded in one way only: they give back the trail, the place,
the hash before it and the text of the record. That text shows all of a record but a score that is
not finite, since JSON writes any such score as null.

* `Json.ofContent_eq_of_compactText_eq`: contents with one text are one tree.
* `EvaluationRecord.Alike`, `json_eq_iff`: records with one text.
* `hashInput_uniquely_decodable`: bytes that a hash covers.
-/

namespace ReleaseGate

open Json (Tree)

/-! ## Records with one text -/

/-- Contents with one text are one tree. -/
theorem Json.ofContent_eq_of_compactText_eq {a b : Content}
    (h : Json.compactText a = Json.compactText b) : Tree.ofContent a = Tree.ofContent b := by
  have hread (content : Content) :
      Tree.read? (Json.compactText content) = some (Tree.ofContent content) := by
    rw [Json.compactText, Tree.compact_eq_layOut 0]
    exact (Json.readable_ofContent content).read?_layOut _
  have hb := hread b
  rw [← h, hread a] at hb
  exact Option.some.inj hb

/-- What is carried is known from its tree. -/
theorem Decodes.eq_of_ofContent_eq {α : Type} {write : α → Content} {read : Json.Node → Option α}
    {Carried : α → Prop} (h : Decodes write read Carried) {v w : α} (hv : Carried v)
    (htree : Tree.ofContent (write v) = Tree.ofContent (write w)) : v = w := by
  have hread : read ((write v).nodeAt (write v).depth) = some v :=
    (h.iff v _ v).mpr ⟨hv, Nat.le_refl _, rfl⟩
  rw [Content.nodeAt, htree] at hread
  exact ((h.iff w _ v).mp hread).2.2

/-- Numbers with one tree are equal, or neither is finite. -/
theorem Json.real_eq_real_iff {x y : Binary64} : Tree.real x = Tree.real y ↔
    x = y ∨ x.isFinite = false ∧ y.isFinite = false := by
  constructor
  · intro h
    have hvalue := congrArg Tree.real? h
    rw [Tree.real?_real, Tree.real?_real] at hvalue
    cases hx : x.isFinite <;> cases hy : y.isFinite <;> simp [hx, hy] at hvalue
    · exact .inr ⟨rfl, rfl⟩
    · exact .inl hvalue
  · rintro (rfl | ⟨hx, hy⟩)
    · rfl
    · simp [Tree.real, hx, hy]

namespace EvaluationRecord

/-- A record with its score left out. -/
def withoutScore (r : EvaluationRecord) : EvaluationRecord :=
  { r with context := { r.context with currentScore := 0 } }

/-- Records that differ at most in scores that are not finite. -/
structure Alike (r r' : EvaluationRecord) : Prop where
  rest : r.withoutScore = r'.withoutScore
  score : r.context.currentScore = r'.context.currentScore ∨
    r.context.currentScore.isFinite = false ∧ r'.context.currentScore.isFinite = false

variable {r r' : EvaluationRecord}

theorem finite_withoutScore (r : EvaluationRecord) : r.withoutScore.Finite := by
  show (0 : Binary64).isFinite = true
  decide +kernel

/-- The tree of a record is that of the record without its score, and that of the score. -/
theorem ofContent_eq_iff : Tree.ofContent r.content = Tree.ofContent r'.content ↔
    Tree.ofContent r.withoutScore.content = Tree.ofContent r'.withoutScore.content ∧
      Tree.real r.context.currentScore = Tree.real r'.context.currentScore := by
  simp only [content, withoutScore, Context.content, Context.request, Context.circumstances,
    List.cons_append, List.nil_append, Tree.ofContent, Tree.ofFields, Tree.object.injEq,
    List.cons.injEq, Prod.mk.injEq]
  grind

theorem Alike.ofContent_eq (h : r.Alike r') :
    Tree.ofContent r.content = Tree.ofContent r'.content :=
  ofContent_eq_iff.mpr ⟨by rw [h.rest], Json.real_eq_real_iff.mpr h.score⟩

/-- Records have one text exactly if they are alike. -/
theorem json_eq_iff : r.json = r'.json ↔ r.Alike r' := by
  constructor
  · intro h
    obtain ⟨hrest, hscore⟩ := ofContent_eq_iff.mp (Json.ofContent_eq_of_compactText_eq h)
    exact ⟨decodes_evaluationRecord.eq_of_ofContent_eq r.finite_withoutScore hrest,
      Json.real_eq_real_iff.mp hscore⟩
  · intro h
    rw [json, json, Json.compactText, Json.compactText, h.ofContent_eq]

/-- A record with a finite score is alike to no other record. -/
theorem Alike.eq (h : r.Alike r') (hr : r.Finite) : r = r' :=
  decodes_evaluationRecord.eq_of_ofContent_eq hr h.ofContent_eq

end EvaluationRecord

/-! ## Covered bytes -/

/-- Bytes that a hash covers come from one trail, place, hash before it and record text, if the
hashes before it have 64 bytes. One text is that of alike records, so of one record if its score is
finite, and it ends no other record's text. -/
theorem hashInput_uniquely_decodable {trail trail' : String} {sequence sequence' : UInt64}
    {record record' : EvaluationRecord} {prev prev' : String}
    (hprev : (utf8 prev).length = 64) (hprev' : (utf8 prev').length = 64) :
    (hashInput trail sequence record prev = hashInput trail' sequence' record' prev' ↔
      trail = trail' ∧ sequence = sequence' ∧ prev = prev' ∧ record.json = record'.json) ∧
    (record.json = record'.json ↔ record.Alike record') ∧
    (record.json = record'.json → record.Finite → record = record') ∧
    (utf8 record.json <:+ utf8 record'.json → record.json = record'.json) := by
  refine ⟨⟨hashInput_inj hprev hprev', ?_⟩, EvaluationRecord.json_eq_iff, ?_,
    EvaluationRecord.json_eq_of_isSuffix⟩
  · rintro ⟨rfl, rfl, rfl, hjson⟩
    rw [hashInput, hashInput, hjson]
  · intro hjson hfinite
    exact (EvaluationRecord.json_eq_iff.mp hjson).eq hfinite

/-- A record of a request, with a note. -/
def notedRecord (note : String) : EvaluationRecord :=
  .ofPass ⟨.ofNat 0, .ofClock 0⟩
    { actor := "agent", action := "deploy", resource := "prod", timestamp := .ofClock 0,
      metadata := Facts.empty.insertText "note" note } []

theorem notedRecord_injective : Function.Injective notedRecord := by
  intro note note' h
  have hget := congrArg (fun r : EvaluationRecord => r.context.metadata.get? "note") h
  exact Json.Value.string.inj (Option.some.inj hget)

/-- A note that is the text of a record does not make the bytes those of that record. -/
theorem hashInput_uniquely_decodable_imitation :
    (utf8 genesisHash).length = 64 ∧
      hashInput "trail" 0 (notedRecord (notedRecord "").json) genesisHash ≠
        hashInput "trail" 0 (notedRecord "") genesisHash := by
  refine ⟨length_utf8_genesisHash, fun h => ?_⟩
  have hfinite (note : String) : (notedRecord note).Finite :=
    (notedRecord note).finite_withoutScore
  have hall := @hashInput_uniquely_decodable "trail" "trail" 0 0
    (notedRecord (notedRecord "").json) (notedRecord "") genesisHash genesisHash
    length_utf8_genesisHash length_utf8_genesisHash
  have hrecord := hall.2.2.1 (hall.1.mp h).2.2.2 (hfinite _)
  have hempty : (notedRecord "").json = "" := notedRecord_injective hrecord
  rw [EvaluationRecord.json, Json.compactText] at hempty
  cases String.ofList_injective hempty

end ReleaseGate
