import ReleaseGate.Facts
import ReleaseGate.Proofs.Json.Codec

/-!
# Values and maps read back

The keys of a map are written in ascending order, so entering them one by one puts each behind the
ones before it. Numbers keep their kind.

* `insertEntry_eq_append`: a key above all others goes to the end.
* `value?_ofValue`: a value with ordered keys reads back.
* `decodes_facts`, `decodes_map`: facts, and maps to parts that read back.
-/

namespace ReleaseGate

/-! ## Ascending keys -/

section Keys

variable {β : Type}

/-- A key above all others goes to the end. -/
theorem insertEntry_eq_append {key : String} {value : β} {entries : List (String × β)}
    (h : ∀ e ∈ entries, e.1 < key) : insertEntry key value entries = entries ++ [(key, value)] := by
  induction entries with
  | nil => rfl
  | cons entry rest ih =>
    obtain ⟨hentry, hrest⟩ := List.forall_mem_cons.mp h
    have hlt : ¬ key < entry.1 := String.lt_asymm hentry
    have hne : key ≠ entry.1 := fun heq => String.lt_irrefl _ (heq ▸ hentry)
    rw [insertEntry, if_neg hlt, if_neg hne, ih hrest]
    rfl

theorem KeysAscend.insertEntry {key : String} {value : β} {found rest : List (String × β)}
    (h : KeysAscend (found ++ (key, value) :: rest)) :
    ReleaseGate.insertEntry key value found = found ++ [(key, value)] :=
  insertEntry_eq_append fun e he =>
    (List.pairwise_append.mp h).2.2 e he (key, value) List.mem_cons_self

theorem keyMap_eq {a b : KeyMap β} (h : a.entries = b.entries) : a = b := by
  cases a
  cases b
  cases h
  rfl

/-- The entries of a map, entered in their order, are the map. -/
theorem ofList_entries (map : KeyMap β) : KeyMap.ofList map.entries = map := by
  have hfold : ∀ (rest : List (String × β)) (found : KeyMap β),
      KeysAscend (found.entries ++ rest) →
      (rest.foldl (fun map e => map.insert e.1 e.2) found).entries = found.entries ++ rest := by
    intro rest
    induction rest with
    | nil => simp
    | cons e rest ih =>
      intro found h
      have hinsert : (found.insert e.1 e.2).entries = found.entries ++ [e] := h.insertEntry
      rw [List.foldl_cons, ih, hinsert, List.append_assoc, List.singleton_append]
      rwa [hinsert, List.append_assoc, List.singleton_append]
  have hentries := hfold map.entries .empty (by simpa [KeyMap.empty] using map.ascending)
  exact keyMap_eq (by simpa [KeyMap.ofList, KeyMap.empty] using hentries)

end Keys

/-! ## Values -/

open Json (Value Tree Node)

mutual

/-- A value with ordered keys reads back, numbers with their kind. -/
theorem value?_ofValue : ∀ (value : Value) (room : Nat) (w : Value), value.Ordered →
    ((Tree.ofContent (.ofValue value)).value? room = some w ↔
      (Content.ofValue value).depth ≤ room ∧ w = value)
  | .null, room, w, _ => by
    simp [Content.ofValue, Tree.ofContent, Tree.value?, Content.depth, eq_comm]
  | .bool b, room, w, _ => by
    simp [Content.ofValue, Tree.ofContent, Tree.value?, Content.depth, eq_comm]
  | .number (.integer i fits), room, w, _ => by
    have hnumber := Tree.number?_integer fits
    rw [Tree.integer] at hnumber
    simp [Content.ofValue, Tree.ofContent, Tree.integer, Tree.value?, hnumber, Content.depth,
      eq_comm]
  | .number (.real x finite), room, w, _ => by
    have hnumber := Tree.number?_real finite
    rw [Tree.real, if_pos finite] at hnumber
    simp [Content.ofValue, Tree.ofContent, Tree.real, finite, Tree.value?, hnumber, Content.depth,
      eq_comm]
  | .string s, room, w, _ => by
    simp [Content.ofValue, Tree.ofContent, Tree.text, Tree.value?, Content.depth, eq_comm]
  | .array items, room, w, h => by
    cases room with
    | zero => simp [Content.ofValue, Tree.ofContent, Tree.value?, Content.depth]
    | succ room =>
      simp [Content.ofValue, Tree.ofContent, Tree.value?, Content.depth,
        itemValues?_ofItems items room _ h, eq_comm]
  | .object fields, room, w, h => by
    cases room with
    | zero => simp [Content.ofValue, Tree.ofContent, Tree.value?, Content.depth]
    | succ room =>
      simp [Content.ofValue, Tree.ofContent, Tree.value?, Content.depth,
        fieldValues?_ofFields fields room [] _ h.2 h.1, eq_comm]

theorem itemValues?_ofItems : ∀ (items : List Value) (room : Nat) (ws : List Value),
    Value.ItemsOrdered items →
    (Tree.itemValues? room (Tree.ofItems (Content.ofItems items)) = some ws ↔
      Content.itemsDepth (Content.ofItems items) ≤ room ∧ ws = items)
  | [], room, ws, _ => by
    simp [Content.ofItems, Tree.ofItems, Tree.itemValues?, Content.itemsDepth, eq_comm]
  | item :: rest, room, ws, h => by
    simp [Content.ofItems, Tree.ofItems, Tree.itemValues?, Content.itemsDepth,
      Option.bind_eq_some_iff, value?_ofValue item room _ h.1, itemValues?_ofItems rest room _ h.2,
      and_assoc, eq_comm (a := ws)]

theorem fieldValues?_ofFields : ∀ (fields : List (String × Value)) (room : Nat)
    (found ws : List (String × Value)), Value.FieldsOrdered fields → KeysAscend (found ++ fields) →
    (Tree.fieldValues? room found (Tree.ofFields (Content.ofFields fields)) = some ws ↔
      Content.fieldsDepth (Content.ofFields fields) ≤ room ∧ ws = found ++ fields)
  | [], room, found, ws, _, _ => by
    simp [Content.ofFields, Tree.ofFields, Tree.fieldValues?, Content.fieldsDepth, eq_comm]
  | (key, value) :: rest, room, found, ws, h, hkeys => by
    have hrest := fieldValues?_ofFields rest room (found ++ [(key, value)]) ws h.2 (by simpa)
    simp [Content.ofFields, Tree.ofFields, Tree.fieldValues?, Content.fieldsDepth,
      Option.bind_eq_some_iff, value?_ofValue value room _ h.1, hkeys.insertEntry, hrest, and_assoc]

end

theorem facts_read?_eq_some_iff {node : Node} {facts : Facts} :
    Facts.read? node = some facts ↔ node.value? = some (.object facts.fields.entries) := by
  obtain ⟨⟨entries, ascending⟩, ordered⟩ := facts
  unfold Facts.read?
  split
  · next found h => simp [h, eq_comm]
  · next h =>
    simp only [reduceCtorEq, false_iff]
    exact fun hvalue => h entries hvalue

theorem decodes_facts : Decodes Facts.content Facts.read? Always where
  iff v room w := by
    have hordered : Value.Ordered (.object v.fields.entries) :=
      ⟨v.fields.ascending, Value.fieldsOrdered_iff.mpr v.ordered⟩
    rw [facts_read?_eq_some_iff]
    show (Tree.ofContent (.ofValue (.object v.fields.entries))).value? room = _ ↔ _
    rw [value?_ofValue _ _ _ hordered, Value.object.injEq]
    obtain ⟨⟨entries, _⟩, _⟩ := v
    obtain ⟨⟨found, _⟩, _⟩ := w
    simp [Always, Facts.content]

/-- A map is carried if all of its values are. -/
theorem decodes_map {β : Type} {write : β → Content} {read : Node → Option β} {Carried : β → Prop}
    (h : Decodes write read Carried) :
    Decodes (fun map : KeyMap β => .record (map.entries.map fun e => (e.1, write e.2)))
      (fun node => (Document.entries? node).bind fun entries =>
        (entries.mapM fun e => (read e.2).map (e.1, ·)).bind fun entries =>
          some (KeyMap.ofList entries))
      (fun map => ∀ e ∈ map.entries, Carried e.2) where
  iff map room w := by
    cases room with
    | zero =>
      have hread : Document.entries? ((Content.record
        (map.entries.map fun e => (e.1, write e.2))).nodeAt 0) = none := rfl
      simp [hread, Content.depth]
    | succ room =>
      have hentry : ∀ e f : String × β,
          (read ((write e.2).nodeAt room)).map (e.1, ·) = some f ↔
            (Carried e.2 ∧ (write e.2).depth ≤ room) ∧ f = e := by
        rintro ⟨key, v⟩ f
        simp [h.iff, and_assoc, eq_comm]
      have hmap := mapM_map_eq_some_iff (fun e : String × β => (e.1, (write e.2).nodeAt room))
        (fun e => (read e.2).map (e.1, ·)) hentry map.entries
      rw [entries?_nodeAt, Option.bind_some, nodesAt, List.map_map, Option.bind_eq_some_iff,
        Content.depth, Nat.add_le_add_iff_right, Content.fieldsDepth_le_iff]
      simp only [List.forall_mem_map]
      constructor
      · rintro ⟨entries, hentries, hw⟩
        obtain ⟨hall, rfl⟩ := (hmap entries).mp hentries
        rw [ofList_entries, Option.some.injEq] at hw
        exact ⟨fun e he => (hall e he).1, fun e he => (hall e he).2, hw.symm⟩
      · rintro ⟨hcarried, hdepth, rfl⟩
        exact ⟨w.entries, (hmap w.entries).mpr ⟨fun e he => ⟨hcarried e he, hdepth e he⟩, rfl⟩,
          congrArg some (ofList_entries w)⟩

end ReleaseGate
