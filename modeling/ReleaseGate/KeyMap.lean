/-!
# Maps with text keys in ascending order

A map is the list of its entries in strictly ascending order of keys, so two maps with the same
entries are equal. The order of texts is that of their code points, which is the order of their
UTF-8 bytes.

* `KeyMap.insert`: the entry of a key is set or replaced.
* `KeyMap.ofList`: entries in any order; the last one of a key wins.
-/

namespace ReleaseGate

/-- Keys rise strictly along the list. -/
def KeysAscend {β : Type} (entries : List (String × β)) : Prop :=
  entries.Pairwise (fun a b => a.1 < b.1)

instance {β : Type} (entries : List (String × β)) : Decidable (KeysAscend entries) :=
  inferInstanceAs (Decidable (entries.Pairwise _))

/-- Put an entry at its place in an ascending list, in place of an entry of the same key. -/
def insertEntry {β : Type} (key : String) (value : β) :
    List (String × β) → List (String × β)
  | [] => [(key, value)]
  | entry :: rest =>
    if key < entry.1 then (key, value) :: entry :: rest
    else if key = entry.1 then (key, value) :: rest
    else entry :: insertEntry key value rest

theorem mem_insertEntry {β : Type} {key : String} {value : β} {entries : List (String × β)}
    {e : String × β} (h : e ∈ insertEntry key value entries) :
    e = (key, value) ∨ e ∈ entries := by
  induction entries with
  | nil => simpa [insertEntry] using h
  | cons entry rest ih =>
    unfold insertEntry at h
    split at h
    · simpa using h
    · split at h
      · rcases List.mem_cons.1 h with h | h
        · exact .inl h
        · exact .inr (List.mem_cons_of_mem _ h)
      · rcases List.mem_cons.1 h with h | h
        · exact .inr (h ▸ List.mem_cons_self)
        · rcases ih h with h | h
          · exact .inl h
          · exact .inr (List.mem_cons_of_mem _ h)

theorem keysAscend_insertEntry {β : Type} {key : String} {value : β}
    {entries : List (String × β)} (h : KeysAscend entries) :
    KeysAscend (insertEntry key value entries) := by
  induction entries with
  | nil => simp [insertEntry, KeysAscend]
  | cons entry rest ih =>
    have hcons := List.pairwise_cons.1 h
    unfold insertEntry
    split
    · next hlt =>
      refine List.pairwise_cons.2 ⟨fun e he => ?_, h⟩
      rcases List.mem_cons.1 he with rfl | he
      · exact hlt
      · exact String.lt_trans hlt (hcons.1 e he)
    · next hnlt =>
      split
      · next heq =>
        exact List.pairwise_cons.2 ⟨fun e he => heq ▸ hcons.1 e he, hcons.2⟩
      · next hne =>
        refine List.pairwise_cons.2 ⟨fun e he => ?_, ih hcons.2⟩
        rcases mem_insertEntry he with rfl | he
        · rcases Std.lt_trichotomy key entry.1 with hl | he | hg
          · exact absurd hl hnlt
          · exact absurd he hne
          · exact hg
        · exact hcons.1 e he

/-- A map from texts to values. -/
structure KeyMap (β : Type) where
  entries : List (String × β)
  ascending : KeysAscend entries

namespace KeyMap

variable {β : Type}

instance [DecidableEq β] : DecidableEq (KeyMap β) := fun a b =>
  if h : a.entries = b.entries then .isTrue (by cases a; cases b; simp_all)
  else .isFalse (fun e => h (by rw [e]))

/-- The map without entries. -/
def empty : KeyMap β := ⟨[], List.Pairwise.nil⟩

instance : Inhabited (KeyMap β) := ⟨empty⟩

/-- Set or replace the entry of a key. -/
def insert (map : KeyMap β) (key : String) (value : β) : KeyMap β :=
  ⟨insertEntry key value map.entries, keysAscend_insertEntry map.ascending⟩

/-- The value of a key. -/
def get? (map : KeyMap β) (key : String) : Option β := map.entries.lookup key

/-- The map of a list of entries; the last entry of a key wins. -/
def ofList (entries : List (String × β)) : KeyMap β :=
  entries.foldl (fun map e => map.insert e.1 e.2) empty

end KeyMap

end ReleaseGate
