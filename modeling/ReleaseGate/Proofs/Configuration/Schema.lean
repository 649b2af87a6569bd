import Mathlib.Data.List.Nodup
import ReleaseGate.Json.Node
import ReleaseGate.Proofs.KeyMap
import ReleaseGate.Toml.Value

/-!
# What the fields of a record set

A record whose fields may all be absent names only what it sets. What a field sets depends on its
key and its node only, and an unknown field sets nothing.

* `LawfulDocument`: in what formats the fields of a record can be looked at one by one.
* `Schema`: under each known key, what a node sets; `Schema.settings?`: what a whole node sets.
* `Schema.nodup_path`: what the fields of a node set has different paths.
-/

namespace ReleaseGate

variable {ν σ τ : Type}

/-- The fields of a node: all those of a map, unknown and repeated ones included, or the known ones
by place. -/
def Document.fields? [Document ν] (keys : List String) (node : ν) : Option (List (String × ν)) :=
  (Document.entries? node).or (Document.record? keys node)

/-- A format in which a record is a map, whose known fields are then looked at, or a list of its
fields by place. -/
class LawfulDocument (ν : Type) [Document ν] : Prop where
  record?_of_entries {keys : List String} {node : ν} {entries : List (String × ν)} :
    Document.entries? node = some entries → Document.record? keys node = Fields.known keys entries
  known_of_place {keys : List String} {node : ν} {fields : Fields ν} : keys.Nodup →
    Document.entries? node = none → Document.record? keys node = some fields →
      Fields.known keys fields = some fields

theorem Document.record?_eq [Document ν] [LawfulDocument ν] {keys : List String}
    (hkeys : keys.Nodup) (node : ν) :
    Document.record? keys node = (Document.fields? keys node).bind (Fields.known keys) := by
  unfold Document.fields?
  cases hentries : Document.entries? node with
  | some entries => exact LawfulDocument.record?_of_entries hentries
  | none =>
    cases hplace : Document.record? keys node with
    | none => rfl
    | some fields => exact (LawfulDocument.known_of_place hkeys hentries hplace).symm

theorem map_fst_zip_sublist (keys : List String) (items : List ν) :
    ((keys.zip items).map Prod.fst).Sublist keys := by
  induction keys generalizing items with
  | nil => exact .refl _
  | cons key keys ih =>
    cases items with
    | nil => exact List.nil_sublist _
    | cons item items => exact (ih items).cons_cons key

/-- Fields by place have known keys, each at most once. -/
theorem Fields.known_zip {keys : List String} (hkeys : keys.Nodup) (items : List ν) :
    Fields.known keys (keys.zip items) = some (keys.zip items) := by
  have hfilter : (keys.zip items).filter (fun field => keys.contains field.1) = keys.zip items := by
    refine List.filter_eq_self.mpr fun field hfield => List.contains_iff_mem.mpr ?_
    exact (List.of_mem_zip hfield).1
  have hnodup : ((keys.zip items).map Prod.fst).Nodup :=
    hkeys.sublist (map_fst_zip_sublist keys items)
  rw [Fields.known, hfilter, if_pos hnodup]

theorem Fields.map_fst_filter (keys : List String) (entries : List (String × ν)) :
    (entries.filter fun field => keys.contains field.1).map Prod.fst =
      (entries.map Prod.fst).filter keys.contains := by
  rw [List.filter_map]
  rfl

instance : LawfulDocument Json.Node where
  record?_of_entries {keys node entries} h := by
    obtain ⟨room, tree⟩ := node
    cases tree with
    | object fields =>
      show (Document.entries? (Json.Node.mk room (.object fields))).bind _ = _
      rw [h, Option.bind_some]
    | _ => cases room <;> cases h
  known_of_place {keys node fields} hkeys hnone h := by
    obtain ⟨room, tree⟩ := node
    cases tree with
    | array items =>
      have hplace : ((Document.items? (Json.Node.mk room (.array items))).bind fun items =>
          if items.length ≤ keys.length then some (keys.zip items) else none) = some fields := h
      obtain ⟨items, -, hzip⟩ := Option.bind_eq_some_iff.mp hplace
      split at hzip
      · cases hzip
        exact Fields.known_zip hkeys items
      · cases hzip
    | _ =>
      have hentries : (Document.entries? (Json.Node.mk room _)).bind (Fields.known keys) =
        some fields := h
      rw [hnone] at hentries
      cases hentries

instance : LawfulDocument Toml.Value where
  record?_of_entries {keys node entries} h := by
    cases node with
    | table fields =>
      cases h
      rfl
    | _ => cases h
  known_of_place {keys node fields} hkeys hnone h := by
    cases node with
    | array items =>
      cases h
      exact Fields.known_zip hkeys items
    | table fields => cases hnone
    | _ => cases h

/-! ## Schemas -/

/-- How a record is read field by field: under each known key, what a node sets. -/
abbrev Schema (ν σ : Type) := List (String × (ν → Option (List σ)))

namespace Schema

variable {schema : Schema ν σ}

/-- The known keys. -/
def keys (schema : Schema ν σ) : List String := schema.map Prod.fst

/-- What one field sets: nothing if its key is not known, and none if its value does not fit. -/
def fieldSets? (schema : Schema ν σ) (field : String × ν) : Option (List σ) :=
  match schema.lookup field.1 with
  | some read => read field.2
  | none => some []

/-- What the fields of a record set, in their order, if each known key occurs at most once and each
value fits. -/
def fieldSettings? (schema : Schema ν σ) (fields : List (String × ν)) : Option (List σ) :=
  if ((fields.map Prod.fst).filter schema.keys.contains).Nodup then
    (fields.mapM schema.fieldSets?).map List.flatten
  else none

/-- What the fields of a node set. -/
def settings? [Document ν] (schema : Schema ν σ) (node : ν) : Option (List σ) :=
  (Document.fields? schema.keys node).bind schema.fieldSettings?

theorem exists_mem_of_mem_keys {key : String} (h : key ∈ schema.keys) :
    ∃ read, schema.lookup key = some read ∧ (key, read) ∈ schema := by
  cases hlookup : schema.lookup key with
  | none =>
    obtain ⟨entry, hentry, rfl⟩ := List.mem_map.mp h
    exact absurd rfl (bne_iff_ne.mp (List.lookup_eq_none_iff.mp hlookup entry hentry))
  | some read => exact ⟨read, rfl, mem_of_lookup_eq_some hlookup⟩

/-- What a field sets is found under its key: paths start with the key, and differ. -/
def Named (schema : Schema ν σ) (path : σ → List String) : Prop :=
  ∀ key read, (key, read) ∈ schema → ∀ node settings, read node = some settings →
    (settings.map path).Nodup ∧ ∀ s ∈ settings, (path s).head? = some key

variable {path : σ → List String}

/-- Paths differ within a field by assumption, and between fields because their keys do. -/
theorem paths_of_mapM (hnamed : schema.Named path) {fields : List (String × ν)}
    {settings : List (List σ)} (h : fields.mapM schema.fieldSets? = some settings)
    (hnodup : ((fields.map Prod.fst).filter schema.keys.contains).Nodup) :
    (settings.flatten.map path).Nodup ∧ ∀ s ∈ settings.flatten,
      ∃ key ∈ (fields.map Prod.fst).filter schema.keys.contains, (path s).head? = some key := by
  induction fields generalizing settings with
  | nil =>
    cases h
    exact ⟨List.nodup_nil, by simp⟩
  | cons field rest ih =>
    obtain ⟨key, node⟩ := field
    rw [List.mapM_cons] at h
    simp only [Option.bind_eq_bind, Option.bind_eq_some_iff, Option.pure_def,
      Option.some.injEq] at h
    obtain ⟨first, hfirst, others, hothers, rfl⟩ := h
    rw [List.map_cons] at hnodup ⊢
    rw [List.flatten_cons, List.map_append]
    by_cases hkey : key ∈ schema.keys
    · have hcontains : schema.keys.contains key = true := List.contains_iff_mem.mpr hkey
      obtain ⟨read, hlookup, hmem⟩ := exists_mem_of_mem_keys hkey
      simp only [fieldSets?, hlookup] at hfirst
      rw [List.filter_cons_of_pos hcontains] at hnodup ⊢
      obtain ⟨hnew, hnodup⟩ := List.nodup_cons.mp hnodup
      obtain ⟨hnodupFirst, hheadFirst⟩ := hnamed key read hmem node first hfirst
      obtain ⟨hnodupOthers, hheadOthers⟩ := ih hothers hnodup
      refine ⟨List.nodup_append.mpr ⟨hnodupFirst, hnodupOthers, ?_⟩, fun s hs => ?_⟩
      · rintro _ hfst _ hoth rfl
        obtain ⟨s, hs, hpath⟩ := List.mem_map.mp hfst
        obtain ⟨t, ht, hsame⟩ := List.mem_map.mp hoth
        obtain ⟨other, hother, hhead⟩ := hheadOthers t ht
        rw [hsame, ← hpath, hheadFirst s hs, Option.some.injEq] at hhead
        exact hnew (hhead ▸ hother)
      · rcases List.mem_append.mp hs with hs | hs
        · exact ⟨key, List.mem_cons_self, hheadFirst s hs⟩
        · obtain ⟨other, hother, hhead⟩ := hheadOthers s hs
          exact ⟨other, List.mem_cons_of_mem _ hother, hhead⟩
    · have hcontains : ¬ schema.keys.contains key = true := by
        rwa [List.contains_iff_mem]
      have hlookup : schema.lookup key = none := lookup_eq_none_of_notMem hkey
      simp only [fieldSets?, hlookup, Option.some.injEq] at hfirst
      subst hfirst
      rw [List.filter_cons_of_neg hcontains] at hnodup ⊢
      exact ih hothers hnodup

/-- Settings of known keys that occur once have different paths. -/
theorem nodup_path [Document ν] (hnamed : schema.Named path) {node : ν} {settings : List σ}
    (h : schema.settings? node = some settings) : (settings.map path).Nodup := by
  obtain ⟨fields, -, h⟩ := Option.bind_eq_some_iff.mp h
  unfold fieldSettings? at h
  split at h
  · next hnodup =>
    obtain ⟨lists, hlists, rfl⟩ := Option.map_eq_some_iff.mp h
    exact (paths_of_mapM hnamed hlists hnodup).1
  · cases h

/-! ## Fields -/

section Fields

variable {α : Type}

/-- A field that holds one value. -/
def leaf (read : ν → Option α) (set : α → σ) (node : ν) : Option (List σ) :=
  (read node).map fun value => [set value]

/-- A field that holds a record with a schema of its own. -/
def table [Document ν] (schema : Schema ν σ) (set : σ → τ) (node : ν) : Option (List τ) :=
  (schema.settings? node).map fun settings => settings.map set

end Fields

end Schema

end ReleaseGate
