import ReleaseGate.Audit.Chain
import ReleaseGate.Proofs.Json.Records
import ReleaseGate.Proofs.KeyMap
import ReleaseGate.Proofs.Text.Utf8

/-!
# Facts have one form

Metadata and evidence are known from the last value under each key. How they were put together does
not matter: not the order of the notes, not the values that were replaced later, not the order or
the repetitions of the keys in a JSON text.

Reading an object notes its fields one after the other, in the order of the text. So both ways to
come by facts, noting and reading, are the same row of insertions.

* `Facts.get?_foldl_note`, `Facts.ext_get?`: facts, by the last value under each key.
* `Context.AssembledAlike`, `Verdict.AssembledAlike`: facts noted in two ways.
* `Json.Tree.BytesAscend`: every object lists each key once, in the order of the UTF-8 bytes.
* `Json.Tree.value?_object`, `Facts.read?_object`: what an object of a text stands for.
-/

namespace ReleaseGate

open Json (Tree Node)

/-! ## Noting facts -/

/-- The entry of a fact. -/
def Fact.entry (fact : Fact) : String × Json.Value := (fact.key, fact.value)

namespace Facts

theorem eq_of_fields_eq {a b : Facts} (h : a.fields = b.fields) : a = b := by
  cases a
  cases b
  cases h
  rfl

/-- Facts are known from their values. -/
theorem ext_get? {a b : Facts} (h : ∀ key, a.get? key = b.get? key) : a = b :=
  eq_of_fields_eq (KeyMap.ext_get? h)

theorem fields_foldl_note (noted : List Fact) (facts : Facts) :
    (noted.foldl note facts).fields =
      (noted.map Fact.entry).foldl (fun map e => map.insert e.1 e.2) facts.fields := by
  induction noted generalizing facts with
  | nil => rfl
  | cons fact rest ih =>
    rw [List.foldl_cons, ih, List.map_cons, List.foldl_cons]
    rfl

/-- The value under a key once facts were noted one after the other, on top of earlier ones: that
of the last fact with this key. -/
def lastValue? (earlier : Facts) (noted : List Fact) (key : String) : Option Json.Value :=
  ((noted.map Fact.entry).reverse.lookup key).or (earlier.get? key)

theorem get?_foldl_note (noted : List Fact) (facts : Facts) (key : String) :
    (noted.foldl note facts).get? key = facts.lastValue? noted key := by
  rw [get?, fields_foldl_note, KeyMap.get?_foldl_insert]
  rfl

/-- Two ways of noting facts leave the same last value under every key. -/
def SameLast (earlier : Facts) (noted : List Fact) (earlier' : Facts) (noted' : List Fact) : Prop :=
  ∀ key, earlier.lastValue? noted key = earlier'.lastValue? noted' key

theorem SameLast.foldl_note_eq {earlier earlier' : Facts} {noted noted' : List Fact}
    (h : SameLast earlier noted earlier' noted') :
    noted.foldl note earlier = noted'.foldl note earlier' := by
  refine ext_get? fun key => ?_
  rw [get?_foldl_note, get?_foldl_note, h key]

end Facts

theorem Context.foldl_withFact (noted : List Fact) (ctx : Context) :
    noted.foldl withFact ctx = { ctx with metadata := noted.foldl Facts.note ctx.metadata } := by
  induction noted generalizing ctx with
  | nil => rfl
  | cons fact rest ih => rw [List.foldl_cons, ih, List.foldl_cons, withFact]

theorem Verdict.foldl_withFact (noted : List Fact) (v : Verdict) :
    noted.foldl withFact v = { v with evidence := noted.foldl Facts.note v.evidence } := by
  induction noted generalizing v with
  | nil => rfl
  | cons fact rest ih => rw [List.foldl_cons, ih, List.foldl_cons, withFact]

/-- Two contexts with the same parts but for their metadata, which were noted in two ways that leave
the same last values. -/
def Context.AssembledAlike (x y : Context) : Prop :=
  ∃ (parts : Context) (earlier earlier' : Facts) (noted noted' : List Fact),
    Facts.SameLast earlier noted earlier' noted' ∧
    x = noted.foldl withFact { parts with metadata := earlier } ∧
    y = noted'.foldl withFact { parts with metadata := earlier' }

/-- Two verdicts with the same parts but for their evidence, which was noted in two ways that leave
the same last values. -/
def Verdict.AssembledAlike (v w : Verdict) : Prop :=
  ∃ (parts : Verdict) (earlier earlier' : Facts) (noted noted' : List Fact),
    Facts.SameLast earlier noted earlier' noted' ∧
    v = noted.foldl withFact { parts with evidence := earlier } ∧
    w = noted'.foldl withFact { parts with evidence := earlier' }

theorem Context.AssembledAlike.eq {x y : Context} (h : x.AssembledAlike y) : x = y := by
  obtain ⟨parts, earlier, earlier', noted, noted', hsame, rfl, rfl⟩ := h
  rw [foldl_withFact, foldl_withFact, hsame.foldl_note_eq]

theorem Verdict.AssembledAlike.eq {v w : Verdict} (h : v.AssembledAlike w) : v = w := by
  obtain ⟨parts, earlier, earlier', noted, noted', hsame, rfl, rfl⟩ := h
  rw [foldl_withFact, foldl_withFact, hsame.foldl_note_eq]

theorem forall₂_assembledAlike {vs ws : List Verdict}
    (h : List.Forall₂ Verdict.AssembledAlike vs ws) : vs = ws := by
  induction h with
  | nil => rfl
  | cons hhead _ ih => rw [hhead.eq, ih]

/-! ## The order of keys in a text -/

namespace Json.Tree

mutual

/-- Every object lists each of its keys once, and in the order of their UTF-8 bytes. -/
def BytesAscend : Tree → Prop
  | array items => ItemsAscend items
  | object fields =>
    (∃ keys : List String, fields.map Prod.fst = keys.map some ∧
      keys.Pairwise fun a b => utf8 a < utf8 b) ∧ FieldsAscend fields
  | _ => True

/-- The same for each item. -/
def ItemsAscend : List Tree → Prop
  | [] => True
  | item :: rest => BytesAscend item ∧ ItemsAscend rest

/-- The same for the value of each field. -/
def FieldsAscend : List (Option String × Tree) → Prop
  | [] => True
  | (_, value) :: rest => BytesAscend value ∧ FieldsAscend rest

end

theorem map_fst_ofFields (fields : List (String × Json.Value)) :
    (ofFields (Content.ofFields fields)).map Prod.fst = (fields.map Prod.fst).map some := by
  induction fields with
  | nil => rfl
  | cons field rest ih =>
    rw [Content.ofFields, ofFields, List.map_cons, ih]
    rfl

mutual

/-- A value whose keys ascend is written with its keys in the order of their bytes. -/
theorem bytesAscend_ofValue : ∀ value : Json.Value, value.Ordered →
    (ofContent (.ofValue value)).BytesAscend
  | .null, _ => trivial
  | .bool _, _ => trivial
  | .number (.integer _ _), _ => trivial
  | .number (.real _ _), _ => by
    unfold Content.ofValue ofContent real
    split <;> trivial
  | .string _, _ => trivial
  | .array items, h => itemsAscend_ofItems items h
  | .object fields, h => by
    refine ⟨⟨fields.map Prod.fst, map_fst_ofFields fields, ?_⟩, fieldsAscend_ofFields fields h.2⟩
    exact List.pairwise_map.mpr (h.1.imp utf8_lt_utf8)

theorem itemsAscend_ofItems : ∀ items : List Json.Value, Json.Value.ItemsOrdered items →
    ItemsAscend (ofItems (Content.ofItems items))
  | [], _ => trivial
  | item :: rest, h => ⟨bytesAscend_ofValue item h.1, itemsAscend_ofItems rest h.2⟩

theorem fieldsAscend_ofFields : ∀ fields : List (String × Json.Value),
    Json.Value.FieldsOrdered fields → FieldsAscend (ofFields (Content.ofFields fields))
  | [], _ => trivial
  | (_, value) :: rest, h => ⟨bytesAscend_ofValue value h.1, fieldsAscend_ofFields rest h.2⟩

end

/-- The value of a field, if the tree is an object that has it. -/
def field? (key : String) : Tree → Option Tree
  | object fields => fields.lookup (some key)
  | _ => none

theorem read?_compactText (content : Content) :
    read? (compactText content) = some (ofContent content) := by
  rw [compactText, compact_eq_layOut 0, (readable_ofContent content).read?_layOut]

end Json.Tree

/-- A part of a text lists facts: an object with exactly their keys, the value of each under it, and
every key of it and of the levels below it once and in the order of the bytes. -/
def Facts.ListedBy (facts : Facts) (part : Option Tree) : Prop :=
  ∃ fields, part = some (.object fields) ∧ (Tree.object fields).BytesAscend ∧
    ∀ key, fields.lookup (some key) =
      (facts.get? key).map fun value => Tree.ofContent (.ofValue value)

theorem Json.Tree.lookup_ofFields (fields : List (String × Json.Value)) (key : String) :
    (ofFields (Content.ofFields fields)).lookup (some key) =
      (fields.lookup key).map fun value => ofContent (.ofValue value) := by
  induction fields with
  | nil => rfl
  | cons field rest ih =>
    rw [Content.ofFields, ofFields, List.lookup_cons, List.lookup_cons, ih, Option.some_beq_some]
    cases key == field.1 <;> rfl

theorem Facts.listedBy_content (facts : Facts) :
    facts.ListedBy (some (Tree.ofContent facts.content)) := by
  have hordered : (Json.Value.object facts.fields.entries).Ordered :=
    ⟨facts.fields.ascending, Json.Value.fieldsOrdered_iff.mpr facts.ordered⟩
  exact ⟨_, rfl, Tree.bytesAscend_ofValue _ hordered, Tree.lookup_ofFields _⟩

/-! ## Reading facts -/

/-- The fact that a field of a text states, in so many levels of room. -/
def Fact.ofField? (room : Nat) (field : Option String × Tree) : Option Fact :=
  match field.1, h : field.2.value? room with
  | some key, some value => some ⟨key, value, Tree.value?_ordered h⟩
  | _, _ => none

/-- A field states a fact if its key is a text and its value is one. -/
theorem Fact.ofField?_eq_some_iff {room : Nat} {field : Option String × Tree} {fact : Fact} :
    ofField? room field = some fact ↔
      field.1 = some fact.key ∧ field.2.value? room = some fact.value := by
  obtain ⟨key, value, ordered⟩ := fact
  unfold ofField?
  split
  · next k v hkey hvalue => simp [hkey, hvalue]
  · next hnone =>
    simp only [reduceCtorEq, false_iff]
    rintro ⟨hkey, hvalue⟩
    exact hnone key value hkey hvalue

namespace Json.Tree

/-- Reading the fields of an object notes the facts that they state. -/
theorem fieldValues?_eq_some_iff {room : Nat} {listed : List (Option String × Tree)}
    (facts : Facts) {entries : List (String × Json.Value)} :
    fieldValues? room facts.fields.entries listed = some entries ↔
      ∃ noted, listed.mapM (Fact.ofField? room) = some noted ∧
        (noted.foldl Facts.note facts).fields.entries = entries := by
  induction listed generalizing facts with
  | nil => simp [fieldValues?]
  | cons field rest ih =>
    obtain ⟨key, item⟩ := field
    simp only [fieldValues?, Option.bind_eq_bind, Option.bind_eq_some_iff, List.mapM_cons,
      Fact.ofField?_eq_some_iff, Option.pure_def, Option.some.injEq]
    constructor
    · rintro ⟨k, hkey, v, hvalue, hrest⟩
      let fact : Fact := ⟨k, v, value?_ordered hvalue⟩
      obtain ⟨noted, hnoted, hentries⟩ := (ih (facts.note fact)).mp hrest
      exact ⟨fact :: noted, ⟨fact, ⟨hkey, hvalue⟩, noted, hnoted, rfl⟩, hentries⟩
    · rintro ⟨_, ⟨fact, ⟨hkey, hvalue⟩, noted, hnoted, rfl⟩, hentries⟩
      exact ⟨fact.key, hkey, fact.value, hvalue,
        (ih (facts.note fact)).mpr ⟨noted, hnoted, hentries⟩⟩

/-- What an object of a text stands for, at any level: the facts that its fields state, noted in the
order of the text. -/
theorem value?_object (room : Nat) (listed : List (Option String × Tree)) :
    (object listed).value? (room + 1) = (listed.mapM (Fact.ofField? room)).map fun noted =>
      .object (noted.foldl Facts.note .empty).fields.entries := by
  refine Option.ext fun value => ?_
  rw [value?, Option.map_eq_some_iff, Option.map_eq_some_iff]
  constructor
  · rintro ⟨entries, hentries, rfl⟩
    obtain ⟨noted, hnoted, rfl⟩ := (fieldValues?_eq_some_iff .empty).mp hentries
    exact ⟨noted, hnoted, rfl⟩
  · rintro ⟨noted, hnoted, rfl⟩
    exact ⟨_, (fieldValues?_eq_some_iff .empty).mpr ⟨noted, hnoted, rfl⟩, rfl⟩

end Json.Tree

/-- The facts of an object are those that its fields state, noted in the order of the text. -/
theorem Facts.read?_object (room : Nat) (listed : List (Option String × Tree)) :
    read? ⟨room + 1, .object listed⟩ =
      (listed.mapM (Fact.ofField? room)).map fun noted => noted.foldl note .empty := by
  refine Option.ext fun facts => ?_
  rw [facts_read?_eq_some_iff, Node.value?, Json.Tree.value?_object, Option.map_eq_some_iff,
    Option.map_eq_some_iff]
  constructor
  · rintro ⟨noted, hnoted, hobject⟩
    exact ⟨noted, hnoted, eq_of_fields_eq (keyMap_eq (Json.Value.object.inj hobject))⟩
  · rintro ⟨noted, hnoted, rfl⟩
    exact ⟨noted, hnoted, rfl⟩

end ReleaseGate
