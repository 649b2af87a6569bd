import Mathlib.Data.List.Nodup
import ReleaseGate.KeyMap

/-!
# Maps are known from their values

Whatever was entered into a map and in whatever order, the map is known from the value under each
key, because its entries ascend and each key has one entry.

* `lookup_insertEntry`: what stands under a key after an entry was set or replaced.
* `KeysAscend.ext`: ascending entries with the same value under each key are the same.
* `KeyMap.get?_foldl_insert`: after a row of entries, the last one of a key stands under it.
-/

namespace ReleaseGate

variable {β : Type}

theorem lookup_cons_ite {e : String × β} {rest : List (String × β)} {key : String} :
    (e :: rest).lookup key = if key = e.1 then some e.2 else rest.lookup key := by
  obtain ⟨k, value⟩ := e
  by_cases hkey : key = k
  · simp [hkey]
  · simp [List.lookup_cons, beq_eq_false_iff_ne.mpr hkey, hkey]

theorem lookup_eq_none_of_notMem {key : String} {entries : List (String × β)}
    (h : key ∉ entries.map Prod.fst) : entries.lookup key = none := by
  refine List.lookup_eq_none_iff.mpr fun e he => bne_iff_ne.mpr ?_
  rintro rfl
  exact h (List.mem_map_of_mem he)

theorem mem_of_lookup_eq_some {key : String} {value : β} {entries : List (String × β)}
    (h : entries.lookup key = some value) : (key, value) ∈ entries := by
  obtain ⟨before, after, rfl, -⟩ := List.lookup_eq_some_iff.mp h
  exact List.mem_append_right _ List.mem_cons_self

/-- Where keys differ, each of them has one value. -/
theorem lookup_eq_some_iff_of_nodup {entries : List (String × β)}
    (hnodup : (entries.map Prod.fst).Nodup) {key : String} {value : β} :
    entries.lookup key = some value ↔ (key, value) ∈ entries := by
  refine ⟨mem_of_lookup_eq_some, fun h => ?_⟩
  obtain ⟨before, after, rfl⟩ := List.append_of_mem h
  rw [List.map_append, List.map_cons, List.nodup_middle, List.nodup_cons, List.mem_append] at hnodup
  have hbefore : before.lookup key = none :=
    lookup_eq_none_of_notMem fun hmem => hnodup.1 (.inl hmem)
  rw [List.lookup_append, hbefore, Option.none_or, List.lookup_cons, beq_self_eq_true]

theorem lookup_insertEntry {key k : String} {value : β} {entries : List (String × β)} :
    (insertEntry key value entries).lookup k =
      if k = key then some value else entries.lookup k := by
  induction entries with
  | nil => rw [insertEntry, lookup_cons_ite]
  | cons entry rest ih =>
    unfold insertEntry
    split
    · rw [lookup_cons_ite]
    · split
      · next heq =>
        by_cases hk : k = entry.1
        · simp [heq, hk]
        · simp [lookup_cons_ite, heq, hk]
      · next hne =>
        rw [lookup_cons_ite, lookup_cons_ite, ih]
        by_cases hk : k = key
        · simp [hk, hne]
        · simp [hk]

namespace KeysAscend

variable {entries a b : List (String × β)}

/-- In ascending entries each key has one value. -/
theorem lookup_eq_some_iff (h : KeysAscend entries) {key : String} {value : β} :
    entries.lookup key = some value ↔ (key, value) ∈ entries := by
  refine lookup_eq_some_iff_of_nodup (List.pairwise_map.mpr (List.Pairwise.imp ?_ h))
  intro a b hlt heq
  exact String.lt_irrefl _ (heq ▸ hlt)

theorem nodup (h : KeysAscend entries) : entries.Nodup := by
  refine List.Pairwise.imp (fun hlt heq => ?_) h
  rw [heq] at hlt
  exact String.lt_irrefl _ hlt

/-- Ascending entries with the same value under each key are the same. -/
theorem ext (ha : KeysAscend a) (hb : KeysAscend b) (h : ∀ key, a.lookup key = b.lookup key) :
    a = b := by
  have hmem : ∀ e, e ∈ a ↔ e ∈ b := by
    rintro ⟨key, value⟩
    rw [← ha.lookup_eq_some_iff, ← hb.lookup_eq_some_iff, h]
  have hperm : a.Perm b := (List.perm_ext_iff_of_nodup ha.nodup hb.nodup).mpr hmem
  exact hperm.eq_of_pairwise (fun _ _ _ _ hlt hgt => absurd hgt (String.lt_asymm hlt)) ha hb

end KeysAscend

namespace KeyMap

theorem get?_insert (map : KeyMap β) (key k : String) (value : β) :
    (map.insert key value).get? k = if k = key then some value else map.get? k :=
  lookup_insertEntry

/-- A map is known from its values. -/
theorem ext_get? {a b : KeyMap β} (h : ∀ key, a.get? key = b.get? key) : a = b := by
  obtain ⟨entries, ascending⟩ := a
  obtain ⟨entries', ascending'⟩ := b
  obtain rfl := ascending.ext ascending' h
  rfl

/-- After a row of entries, the last one of a key stands under it. -/
theorem get?_foldl_insert (rest : List (String × β)) (map : KeyMap β) (key : String) :
    (rest.foldl (fun map e => map.insert e.1 e.2) map).get? key =
      (rest.reverse.lookup key).or (map.get? key) := by
  induction rest generalizing map with
  | nil => rfl
  | cons e rest ih =>
    rw [List.foldl_cons, ih, get?_insert, List.reverse_cons, List.lookup_append, Option.or_assoc,
      lookup_cons_ite]
    by_cases hkey : key = e.1
    · simp only [hkey, if_true, Option.some_or]
    · simp only [hkey, if_false, List.lookup_nil, Option.none_or]

end KeyMap

end ReleaseGate
