import ReleaseGate.Audit.Chain
import ReleaseGate.Proofs.Policy.Facts
import ReleaseGate.Time.Epoch

/-!
# What is hashed does not depend on how it was put together

Contexts and verdicts are equal as soon as the last value under each key is, so records made from
them have the same hash. This holds for contexts that come from a text as well: the order and the
repetitions of the keys in the text leave no trace.

* `Context.Frame`: the JSON of a context around its metadata. Its record takes one of the levels
  that a text may nest and the metadata another.
* `Context.Frame.read?_around`: a context is read as if its metadata were noted on empty ones.
* `facts_canonical`: contexts, verdicts, their texts, the hashes of records, and reading.
-/

namespace ReleaseGate

open Json (Tree Node)

/-! ## Reading around the metadata -/

/-- The fields of a record on both sides of one field, none of them with its key. -/
structure Fields.Sides (ν : Type) (key : String) where
  before : Fields ν
  after : Fields ν
  without : key ∉ (before ++ after).map Prod.fst

/-- The record with the field put in. -/
def Fields.Sides.around {ν : Type} {key : String} (node : ν) (sides : Sides ν key) : Fields ν :=
  sides.before ++ (key, node) :: sides.after

/-- Whatever stands under a known key, the known fields around it are the same. -/
theorem Fields.exists_known_sides {ν : Type} {keys : List String} {key : String} (hkey : key ∈ keys)
    (before after : List (String × ν)) : ∃ sides : Option (Sides ν key), ∀ node,
      known keys (before ++ (key, node) :: after) = sides.map (Sides.around node) := by
  let found : List (String × ν) → Fields ν := fun fields =>
    fields.filter fun field => keys.contains field.1
  have hknown : ∀ node, known keys (before ++ (key, node) :: after) =
      if key ∉ (found before ++ found after).map Prod.fst ∧
          ((found before ++ found after).map Prod.fst).Nodup then
        some (found before ++ (key, node) :: found after)
      else none := by
    intro node
    have hcontains : keys.contains key = true := List.contains_iff_mem.mpr hkey
    simp only [known, List.filter_append, List.filter_cons, hcontains, if_true, List.map_append,
      List.map_cons, List.nodup_middle, List.nodup_cons, found]
  by_cases h : key ∉ (found before ++ found after).map Prod.fst ∧
      ((found before ++ found after).map Prod.fst).Nodup
  · refine ⟨some ⟨found before, found after, h.1⟩, fun node => ?_⟩
    rw [hknown, if_pos h]
    rfl
  · refine ⟨none, fun node => ?_⟩
    rw [hknown, if_neg h]
    rfl

namespace Context

/-- The context of the fields of a record. -/
def ofFields? (fields : Fields Node) : Option Context := do
  let actor ← fields.required "actor" Document.text?
  let action ← fields.required "action" Document.text?
  let resource ← fields.required "resource" Document.text?
  let timestamp ← fields.required "timestamp" Instant.readNode?
  let metadata ← fields.optional "metadata" .empty Facts.read?
  let currentScore ← fields.optional "current_score" 0 Document.real?
  let validationLevel ← fields.optional "validation_level" noValidation Document.text?
  return { actor, action, resource, timestamp, metadata, currentScore, validationLevel }

theorem read?_eq_bind (node : Node) :
    read? node = (Document.record? keys node).bind ofFields? := rfl

/-- The metadata are read on their own: the other fields give the context around them. -/
theorem ofFields?_around (sides : Fields.Sides Node "metadata") (node : Node) :
    ofFields? (sides.around node) = (Facts.read? node).bind fun facts =>
      (ofFields? (sides.before ++ sides.after)).map fun ctx => { ctx with metadata := facts } := by
  obtain ⟨before, after, without⟩ := sides
  have habsent : (before ++ after).lookup "metadata" = none := lookup_eq_none_of_notMem without
  have hfound : (before ++ ("metadata", node) :: after).lookup "metadata" = some node := by
    rw [List.lookup_append, Option.or_eq_none_iff] at habsent
    rw [List.lookup_append, habsent.1, Option.none_or, List.lookup_cons, beq_self_eq_true]
  have hother : ∀ key, key ≠ "metadata" →
      (before ++ ("metadata", node) :: after).lookup key = (before ++ after).lookup key := by
    intro key hkey
    rw [List.lookup_append, List.lookup_append, List.lookup_cons, beq_false_of_ne hkey]
  have hactor := hother "actor" (by decide)
  have haction := hother "action" (by decide)
  have hresource := hother "resource" (by decide)
  have htimestamp := hother "timestamp" (by decide)
  have hscore := hother "current_score" (by decide)
  have hlevel := hother "validation_level" (by decide)
  cases hread : Facts.read? node with
  | none =>
    simp [ofFields?, Fields.Sides.around, Fields.required, Fields.optional, hfound, hactor, haction,
      hresource, htimestamp, hscore, hlevel, hread]
  | some facts =>
    simp [ofFields?, Fields.Sides.around, Fields.required, Fields.optional, hfound, habsent, hactor,
      haction, hresource, htimestamp, hscore, hlevel, hread, Option.map_bind]

/-- The JSON of a context around its metadata: an object with any fields, or an array of the fields
in order. -/
inductive Frame where
  | fields (before after : List (Option String × Tree))
  | items (actor action resource timestamp : Tree) (rest : List Tree)

namespace Frame

/-- The JSON with the metadata put in. -/
def around (metadata : Tree) : Frame → Tree
  | fields before after => .object (before ++ (some "metadata", metadata) :: after)
  | items actor action resource timestamp rest =>
    .array (actor :: action :: resource :: timestamp :: metadata :: rest)

theorem exists_sides_fields (before after : List (Option String × Tree)) :
    ∃ sides : Option (Fields.Sides Node "metadata"), ∀ metadata,
      Document.record? keys ((fields before after).around metadata).node =
        sides.map (Fields.Sides.around ⟨126, metadata⟩) := by
  let entry : Option String × Tree → Option (String × Node) := fun field =>
    field.1.map fun key => (key, ⟨126, field.2⟩)
  have hrecord : ∀ metadata, Document.record? keys ((fields before after).around metadata).node =
      (before.mapM entry).bind fun before => (after.mapM entry).bind fun after =>
        Fields.known keys (before ++ ("metadata", ⟨126, metadata⟩) :: after) := by
    intro metadata
    show (List.mapM entry (before ++ (some "metadata", metadata) :: after)).bind _ = _
    rw [List.mapM_append, List.mapM_cons]
    cases before.mapM entry with
    | none => rfl
    | some before =>
      cases after.mapM entry with
      | none => rfl
      | some after => rfl
  cases hbefore : before.mapM entry with
  | none =>
    refine ⟨none, fun metadata => ?_⟩
    rw [hrecord, hbefore]
    rfl
  | some before =>
    cases hafter : after.mapM entry with
    | none =>
      refine ⟨none, fun metadata => ?_⟩
      rw [hrecord, hbefore, hafter]
      rfl
    | some after =>
      have hkey : "metadata" ∈ keys := by decide
      obtain ⟨sides, hsides⟩ := Fields.exists_known_sides hkey before after
      refine ⟨sides, fun metadata => ?_⟩
      rw [hrecord, hbefore, hafter, ← hsides]
      rfl

theorem exists_sides_items (actor action resource timestamp : Tree) (rest : List Tree) :
    ∃ sides : Option (Fields.Sides Node "metadata"), ∀ metadata,
      Document.record? keys ((items actor action resource timestamp rest).around metadata).node =
        sides.map (Fields.Sides.around ⟨126, metadata⟩) := by
  let first : Fields Node := ["actor", "action", "resource", "timestamp"].zip
    ([actor, action, resource, timestamp].map (Node.mk 126))
  let last : Fields Node := ["current_score", "validation_level"].zip (rest.map (Node.mk 126))
  have hrecord : ∀ metadata,
      Document.record? keys ((items actor action resource timestamp rest).around metadata).node =
        if (rest.map (Node.mk 126)).length + 5 ≤ 7 then
          some (first ++ ("metadata", ⟨126, metadata⟩) :: last)
        else none := fun _ => rfl
  have hwithout : "metadata" ∉ (first ++ last).map Prod.fst := by
    rw [List.mem_map]
    rintro ⟨⟨key, node⟩, hfield, rfl⟩
    rcases List.mem_append.mp hfield with hfield | hfield
    · exact absurd (List.of_mem_zip hfield).1 (by decide)
    · exact absurd (List.of_mem_zip hfield).1 (by decide)
  by_cases hlength : (rest.map (Node.mk 126)).length + 5 ≤ 7
  · refine ⟨some ⟨first, last, hwithout⟩, fun metadata => ?_⟩
    rw [hrecord, if_pos hlength]
    rfl
  · refine ⟨none, fun metadata => ?_⟩
    rw [hrecord, if_neg hlength]
    rfl

theorem exists_sides (frame : Frame) :
    ∃ sides : Option (Fields.Sides Node "metadata"), ∀ metadata,
      Document.record? keys (frame.around metadata).node =
        sides.map (Fields.Sides.around ⟨126, metadata⟩) := by
  cases frame with
  | fields before after => exact exists_sides_fields before after
  | items actor action resource timestamp rest =>
    exact exists_sides_items actor action resource timestamp rest

/-- A context is read as one without metadata, with the facts that the JSON lists noted in the order
of the text. -/
theorem exists_read?_around (frame : Frame) : ∃ around : Option Context,
    (∀ ctx ∈ around, ctx.metadata = .empty) ∧
      ∀ listed, read? (frame.around (.object listed)).node =
        (listed.mapM (Fact.ofField? 125)).bind fun noted =>
          around.map fun ctx => noted.foldl withFact ctx := by
  obtain ⟨sides, hsides⟩ := frame.exists_sides
  cases sides with
  | none =>
    refine ⟨none, by simp, fun listed => ?_⟩
    rw [read?_eq_bind, hsides]
    simp
  | some sides =>
    refine ⟨(ofFields? (sides.before ++ sides.after)).map fun ctx =>
      { ctx with metadata := .empty }, ?_, fun listed => ?_⟩
    · intro ctx hctx
      obtain ⟨_, _, rfl⟩ := Option.map_eq_some_iff.mp hctx
      rfl
    · rw [read?_eq_bind, hsides, Option.map_some, Option.bind_some, ofFields?_around,
        Facts.read?_object, Option.bind_map]
      simp only [Function.comp_def, Option.map_map, foldl_withFact]

/-- A context is read as if the facts that its JSON lists were noted on the context that is read
without any. -/
theorem read?_around {frame : Frame} {listed : List (Option String × Tree)} {found : List Fact}
    {ctx : Context} (hfound : listed.mapM (Fact.ofField? 125) = some found)
    (hctx : read? (frame.around (.object [])).node = some ctx) :
    ctx.metadata = .empty ∧
      read? (frame.around (.object listed)).node = some (found.foldl withFact ctx) := by
  obtain ⟨around, hempty, hread⟩ := frame.exists_read?_around
  rw [hread, List.mapM_nil, Option.pure_def, Option.bind_some] at hctx
  simp only [List.foldl_nil, Option.map_id'] at hctx
  subst hctx
  refine ⟨hempty ctx rfl, ?_⟩
  rw [hread, hfound, Option.bind_some, Option.map_some]

end Frame

end Context

/-! ## Records -/

/-- Two records whose contexts and verdicts were put together in two ways that leave the same last
values, and are otherwise equal. -/
structure EvaluationRecord.AssembledAlike (r s : EvaluationRecord) : Prop where
  evaluationId : r.evaluationId = s.evaluationId
  context : r.context.AssembledAlike s.context
  verdicts : List.Forall₂ Verdict.AssembledAlike r.verdicts s.verdicts
  allowed : r.allowed = s.allowed
  timestamp : r.timestamp = s.timestamp

theorem EvaluationRecord.AssembledAlike.eq {r s : EvaluationRecord} (h : r.AssembledAlike s) :
    r = s := by
  have hcontext := h.context.eq
  have hverdicts := forall₂_assembledAlike h.verdicts
  cases r
  cases s
  cases h.evaluationId
  cases hcontext
  cases hverdicts
  cases h.allowed
  cases h.timestamp
  rfl

/-- The part of a compact text under a key. -/
def partOfText (content : Content) (key : String) : Option Tree :=
  (Tree.read? (Json.compactText content)).bind (Tree.field? key)

/-- Metadata and evidence have one form. Contexts, verdicts and hashes of records do not depend on
the way in which facts were noted. The texts list the keys in the order of their bytes at every
level. A context that is read from a text is the one whose metadata have the same last values, and
so are the objects within the metadata. -/
theorem facts_canonical :
    (∀ x y : Context, x.AssembledAlike y → x = y) ∧
    (∀ v w : Verdict, v.AssembledAlike w → v = w) ∧
    (∀ ctx : Context, ctx.metadata.ListedBy (partOfText ctx.content "metadata")) ∧
    (∀ v : Verdict, v.evidence.ListedBy (partOfText v.content "evidence")) ∧
    (∀ (trailId prevHash : String) (sequence : UInt64) (r s : EvaluationRecord),
      r.AssembledAlike s →
        hashEvent trailId sequence r prevHash = hashEvent trailId sequence s prevHash) ∧
    (∀ (text : String) (frame : Context.Frame) (listed : List (Option String × Tree))
        (found facts : List Fact) (ctx : Context),
      Tree.read? text = some (frame.around (.object listed)) →
      listed.mapM (Fact.ofField? (Json.deepest - 2)) = some found →
      Context.read? (frame.around (.object [])).node = some ctx →
      Facts.SameLast .empty found .empty facts →
        decodeText Context.read? text = some (facts.foldl Context.withFact ctx)) ∧
    (∀ (room : Nat) (listed : List (Option String × Tree)),
      (Tree.object listed).value? (room + 1) = (listed.mapM (Fact.ofField? room)).map fun noted =>
        .object (noted.foldl Facts.note .empty).fields.entries) := by
  refine ⟨fun x y h => h.eq, fun v w h => h.eq, fun ctx => ?_, fun v => ?_,
    fun trailId prevHash sequence r s h => by rw [h.eq], ?_, Tree.value?_object⟩
  · rw [partOfText, Tree.read?_compactText]
    exact ctx.metadata.listedBy_content
  · rw [partOfText, Tree.read?_compactText]
    exact v.evidence.listedBy_content
  · intro text frame listed found facts ctx htext hfound hctx hsame
    obtain ⟨hempty, hread⟩ := Context.Frame.read?_around hfound hctx
    have hmetadata : found.foldl Facts.note ctx.metadata = facts.foldl Facts.note ctx.metadata := by
      rw [hempty]
      exact hsame.foldl_note_eq
    rw [decodeText, Node.read?, htext, Option.map_some, Option.bind_some, hread,
      Context.foldl_withFact, hmetadata, Context.foldl_withFact]

/-- A request without metadata. -/
def deployRequest : Context where
  actor := "ci"
  action := "deploy"
  resource := "core"
  timestamp := .ofClock 0

/-- The JSON of this request, with metadata of any form. -/
def deployRequestWith (metadata : Content) : Content :=
  .record (deployRequest.request ++ ("timestamp", .text deployRequest.timestamp.text) ::
    ("metadata", metadata) :: [("current_score", .real 0), ("validation_level", .text "none")])

/-- A text whose metadata repeat a key and hold an object with its keys out of order. -/
theorem facts_canonical_repeatedKey :
    decodeText Context.read? (Json.compactText (deployRequestWith (.record [
      ("reviewed", .flag false), ("build", .record [("z", .null), ("a", .flag true)]),
      ("reviewed", .flag true)]))) =
    some (([⟨"reviewed", .bool true, trivial⟩,
      ⟨"build", .object [("a", .bool true), ("z", .null)], by decide, trivial, trivial, trivial⟩] :
        List Fact).foldl Context.withFact deployRequest) := by
  have hscore : deployRequest.currentScore.isFinite = true := by decide +kernel
  have hrequest : Context.read? (deployRequest.content.nodeAt Json.deepest) = some deployRequest :=
    (decodes_context.iff deployRequest Json.deepest deployRequest).mpr ⟨hscore, by decide, rfl⟩
  refine facts_canonical.2.2.2.2.2.1 _ (.fields [(some "actor", _), (some "action", _),
    (some "resource", _), (some "timestamp", _)] [(some "current_score", _),
    (some "validation_level", _)]) _ _ _ deployRequest (Tree.read?_compactText _) rfl hrequest ?_
  intro key
  by_cases hreviewed : key = "reviewed"
  · subst hreviewed
    rfl
  · by_cases hbuild : key = "build"
    · subst hbuild
      rfl
    · simp [Facts.lastValue?, Fact.entry, List.lookup_cons, beq_false_of_ne hreviewed,
        beq_false_of_ne hbuild]

end ReleaseGate
