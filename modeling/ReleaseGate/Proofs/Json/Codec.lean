import ReleaseGate.Json.Node
import ReleaseGate.Proofs.Json.Numeral

/-!
# Written and read back

A pair of a writer and a reader is exact if the reader gives back what was written, and nothing
else, as soon as the numbers are finite and the nesting is within the room that is left. Exact pairs
of parts make an exact pair of a record.

* `Content.depth`: how deep lists and records nest.
* `Decodes`: an exact pair, with the values it can carry.
* `decodes_text`, `decodes_real`, `decodes_tag`, `Decodes.list`: parts.
* `decodes_record`: a record from its fields.
-/

namespace ReleaseGate

namespace Content

mutual

/-- How deep lists and records nest; what is neither has depth zero. -/
def depth : Content → Nat
  | null => 0
  | flag _ => 0
  | whole _ => 0
  | real _ => 0
  | text _ => 0
  | list items => itemsDepth items + 1
  | record fields => fieldsDepth fields + 1

/-- The depth of the deepest item. -/
def itemsDepth : List Content → Nat
  | [] => 0
  | item :: rest => max (depth item) (itemsDepth rest)

/-- The depth of the deepest field. -/
def fieldsDepth : List (String × Content) → Nat
  | [] => 0
  | (_, value) :: rest => max (depth value) (fieldsDepth rest)

end

theorem itemsDepth_le_iff {items : List Content} {n : Nat} :
    itemsDepth items ≤ n ↔ ∀ item ∈ items, item.depth ≤ n := by
  induction items with
  | nil => simp [itemsDepth]
  | cons item rest ih => simp [itemsDepth, ih]

theorem fieldsDepth_le_iff {fields : List (String × Content)} {n : Nat} :
    fieldsDepth fields ≤ n ↔ ∀ field ∈ fields, field.2.depth ≤ n := by
  induction fields with
  | nil => simp [fieldsDepth]
  | cons field rest ih => simp [fieldsDepth, ih]

/-- A content as a node below which so many levels may be entered. -/
def nodeAt (content : Content) (room : Nat) : Json.Node := ⟨room, .ofContent content⟩

end Content

open Json (Node)

/-- A reader gives back what a writer writes, exactly for the values that can be carried and the
nesting that there is room for; there is nothing else that it gives. -/
structure Decodes {α : Type} (write : α → Content) (read : Node → Option α) (Carried : α → Prop) :
    Prop where
  iff : ∀ v room w,
    read ((write v).nodeAt room) = some w ↔ Carried v ∧ (write v).depth ≤ room ∧ w = v

/-- All values can be carried. -/
def Always {α : Type} (_ : α) : Prop := True

@[simp] theorem always {α : Type} (v : α) : Always v := trivial

/-- Reading one part and going on with it. -/
theorem Decodes.bind_iff {α β : Type} {write : α → Content} {read : Node → Option α}
    {Carried : α → Prop} (h : Decodes write read Carried) (v : α) (room : Nat) (f : α → Option β)
    (r : β) : (read ((write v).nodeAt room)).bind f = some r ↔
      (Carried v ∧ (write v).depth ≤ room) ∧ f v = some r := by
  simp only [Option.bind_eq_some_iff, h.iff]
  constructor
  · rintro ⟨w, ⟨hcarried, hdepth, rfl⟩, hf⟩
    exact ⟨⟨hcarried, hdepth⟩, hf⟩
  · rintro ⟨⟨hcarried, hdepth⟩, hf⟩
    exact ⟨v, ⟨hcarried, hdepth, rfl⟩, hf⟩

/-! ## Parts -/

section Parts

variable {α : Type}

theorem decodes_text : Decodes Content.text (Document.text? (ν := Node)) Always where
  iff v room w := by
    show some v = some w ↔ True ∧ 0 ≤ room ∧ w = v
    simp [eq_comm]

theorem decodes_flag : Decodes Content.flag (Document.flag? (ν := Node)) Always where
  iff v room w := by
    show some v = some w ↔ True ∧ 0 ≤ room ∧ w = v
    simp [eq_comm]

/-- Only finite numbers have a numeral. -/
theorem decodes_real : Decodes Content.real (Document.real? (ν := Node)) (·.isFinite = true) where
  iff v room w := by
    show (Json.Tree.real v).real? = some w ↔ v.isFinite = true ∧ 0 ≤ room ∧ w = v
    rw [Json.Tree.real?_real]
    split
    · next hv => simp only [hv, Nat.zero_le, true_and, Option.some.injEq, eq_comm]
    · next hv => simp only [hv, false_and, reduceCtorEq]

/-- A value that is known from its text. -/
theorem decodes_spelled {spell : α → String} {parse : String → Option α}
    (h : ∀ v, parse (spell v) = some v) :
    Decodes (fun v => .text (spell v)) (fun node => (Document.text? node).bind parse) Always where
  iff v room w := by
    show parse (spell v) = some w ↔ True ∧ 0 ≤ room ∧ w = v
    simp [h, eq_comm]

/-- A choice that is known from its tag. -/
theorem decodes_tag {tag : α → String} {ofTag? : String → Option α}
    (h : ∀ v, ofTag? (tag v) = some v) :
    Decodes (fun v => .text (tag v)) (fun node => (Document.tag? node).bind ofTag?) Always where
  iff v room w := by
    show ofTag? (tag v) = some w ↔ True ∧ 0 ≤ room ∧ w = v
    simp [h, eq_comm]

end Parts

/-! ## Lists -/

section Lists

variable {α : Type} {write : α → Content} {read : Node → Option α} {Carried : α → Prop}

theorem ofItems_eq_map (items : List Content) :
    Json.Tree.ofItems items = items.map Json.Tree.ofContent := by
  induction items with
  | nil => rfl
  | cons item rest ih => rw [Json.Tree.ofItems, List.map_cons, ih]

theorem items?_nodeAt (items : List Content) (room : Nat) :
    Document.items? ((Content.list items).nodeAt (room + 1)) =
      some (items.map (·.nodeAt room)) := by
  show some ((Json.Tree.ofItems items).map (Node.mk room)) = _
  rw [ofItems_eq_map, List.map_map]
  rfl

/-- Items that each read back as themselves, if at all, do so together. -/
theorem mapM_map_eq_some_iff {β : Type} (node : α → β) (read : β → Option α) {P : α → Prop}
    (h : ∀ v w, read (node v) = some w ↔ P v ∧ w = v) (vs ws : List α) :
    (vs.map node).mapM read = some ws ↔ (∀ v ∈ vs, P v) ∧ ws = vs := by
  induction vs generalizing ws with
  | nil => simp [eq_comm]
  | cons v vs ih =>
    simp only [List.map_cons, List.mapM_cons, Option.bind_eq_bind, Option.bind_eq_some_iff, h, ih,
      Option.pure_def, Option.some.injEq, List.forall_mem_cons]
    constructor
    · rintro ⟨w, ⟨hv, rfl⟩, ws, ⟨hvs, rfl⟩, rfl⟩
      exact ⟨⟨hv, hvs⟩, rfl⟩
    · rintro ⟨⟨hv, hvs⟩, rfl⟩
      exact ⟨v, ⟨hv, rfl⟩, vs, ⟨hvs, rfl⟩, rfl⟩

/-- A list is carried if all of its items are. -/
theorem Decodes.list (h : Decodes write read Carried) :
    Decodes (fun vs => .list (vs.map write)) (Document.list? read) (fun vs => ∀ v ∈ vs, Carried v)
    where
  iff vs room ws := by
    cases room with
    | zero =>
      have hread : Document.list? read ((Content.list (vs.map write)).nodeAt 0) = none := rfl
      simp [hread, Content.depth]
    | succ room =>
      have hitem : ∀ v w, read ((write v).nodeAt room) = some w ↔
          (Carried v ∧ (write v).depth ≤ room) ∧ w = v := fun v w => by rw [h.iff, and_assoc]
      rw [Document.list?, items?_nodeAt, Option.bind_some, List.map_map]
      show (vs.map fun v => (write v).nodeAt room).mapM read = some ws ↔ _
      rw [mapM_map_eq_some_iff _ read hitem, Content.depth, Nat.add_le_add_iff_right,
        Content.itemsDepth_le_iff]
      simp only [List.forall_mem_map, forall_and, and_assoc]

end Lists

/-! ## Records -/

/-- The nodes of fields. -/
def nodesAt (fields : List (String × Content)) (room : Nat) : Fields Node :=
  fields.map fun field => (field.1, field.2.nodeAt room)

theorem entries?_nodeAt (fields : List (String × Content)) (room : Nat) :
    Document.entries? ((Content.record fields).nodeAt (room + 1)) =
      some (nodesAt fields room) := by
  show (Json.Tree.ofFields fields).mapM _ = _
  induction fields with
  | nil => rfl
  | cons field rest ih => simp [Json.Tree.ofFields, ih, nodesAt, Content.nodeAt]

theorem record?_nodeAt {keys : List String} (hkeys : keys.Nodup)
    {fields : List (String × Content)} (hfields : (fields.map Prod.fst).Sublist keys) (room : Nat) :
    Document.record? keys ((Content.record fields).nodeAt (room + 1)) =
      some (nodesAt fields room) := by
  show (Document.entries? ((Content.record fields).nodeAt (room + 1))).bind (Fields.known keys) = _
  have hmap : (nodesAt fields room).map Prod.fst = fields.map Prod.fst := by
    simp [nodesAt, Function.comp_def]
  have hfilter : (nodesAt fields room).filter (fun field => keys.contains field.1) =
      nodesAt fields room := by
    refine List.filter_eq_self.mpr fun field hfield => List.contains_iff_mem.mpr ?_
    exact hfields.subset (hmap ▸ List.mem_map_of_mem hfield)
  rw [entries?_nodeAt, Option.bind_some, Fields.known, hfilter, if_pos]
  rw [hmap]
  exact hkeys.sublist hfields

section Fields

variable {α : Type} (fields : List (String × Content)) (key : String) (read : Node → Option α)
  (room : Nat)

theorem lookup_nodesAt :
    (nodesAt fields room).lookup key = (fields.lookup key).map (·.nodeAt room) := by
  induction fields with
  | nil => rfl
  | cons field rest ih =>
    rw [nodesAt] at ih
    rw [nodesAt, List.map_cons, List.lookup_cons, List.lookup_cons, ih]
    split <;> rfl

@[simp] theorem required_nodesAt : (nodesAt fields room).required key read =
    (fields.lookup key).bind fun content => read (content.nodeAt room) := by
  rw [Fields.required, lookup_nodesAt]
  cases fields.lookup key <;> rfl

@[simp] theorem optional_nodesAt (default : α) : (nodesAt fields room).optional key default read =
    ((fields.lookup key).map fun content => read (content.nodeAt room)).getD (some default) := by
  rw [Fields.optional, lookup_nodesAt]
  cases fields.lookup key <;> rfl

end Fields

/-- A record is read field by field: a reader that is exact on the nodes of the fields is exact. -/
theorem decodes_record {α : Type} {fields : α → List (String × Content)} (keys : List String)
    {build : Fields Node → Option α} {Carried : α → Prop} (hkeys : keys.Nodup)
    (hfields : ∀ v, ((fields v).map Prod.fst).Sublist keys)
    (hbuild : ∀ v room w, build (nodesAt (fields v) room) = some w ↔
      Carried v ∧ (∀ field ∈ fields v, field.2.depth ≤ room) ∧ w = v) :
    Decodes (fun v => .record (fields v)) (fun node => (Document.record? keys node).bind build)
      Carried where
  iff v room w := by
    cases room with
    | zero =>
      have hread : Document.record? keys ((Content.record (fields v)).nodeAt 0) = none := rfl
      simp [hread, Content.depth]
    | succ room =>
      rw [record?_nodeAt hkeys (hfields v), Option.bind_some, hbuild, Content.depth,
        Nat.add_le_add_iff_right, Content.fieldsDepth_le_iff]

end ReleaseGate
