import Mathlib.Data.List.Perm.Basic
import ReleaseGate.Proofs.Configuration.Schema

/-!
# Records laid over defaults

A record whose fields may all be absent is read as its default with what its fields set put in. The
record is taken apart into its fields here. A field holds one value, or a record of its own whose
fields are again set one by one, so what is said of a record can be said of a field.

* `LaidOver`: a reader gives the default with what a node sets put in, in any order.
* `Part`: a field of a record; `Part.leaf`, `Part.table`: one that holds a value, or a record.
* `Assembled`: a record is read part by part, and what it sets is what its parts set.
* `Assembled.laidOver`: so it is laid over its default.
-/

namespace ReleaseGate

variable {ν ν' σ κ : Type}

/-! ## Readers -/

/-- What a node sets, and the reader that puts it into a default. -/
structure LaidOver (read : ν → Option κ) (settings? : ν → Option (List σ))
    (path : σ → List String) (put : σ → κ → κ) (default : κ) : Prop where
  read_eq (node : ν) :
    read node = (settings? node).map fun settings => settings.foldr put default
  /-- No two settings of a node have the same path. -/
  nodup_path {node : ν} {settings : List σ} :
    settings? node = some settings → (settings.map path).Nodup
  /-- Settings with different paths can be put in in either order. -/
  put_comm (s t : σ) (config : κ) :
    path s ≠ path t → put s (put t config) = put t (put s config)

/-- A value that is set as a whole. -/
theorem LaidOver.whole {read : ν → Option κ} {default : κ} :
    LaidOver read (fun node => (read node).map fun value => [value]) (fun _ => [])
      (fun value _ => value) default where
  read_eq node := by cases read node <;> rfl
  nodup_path h := by
    obtain ⟨value, -, rfl⟩ := Option.map_eq_some_iff.mp h
    exact List.nodup_singleton _
  put_comm _ _ _ h := absurd rfl h

/-- A field of a record: how its value is read, what a node under its key sets in this value, and
how such a setting becomes one of the record. -/
structure Part (ν : Type) {σ κ : Type} (path : σ → List String) (put : σ → κ → κ) (default : κ)
    where
  key : String
  {Value Inner : Type}
  /-- The value that a node holds, and what it sets in the default value. -/
  read : ν → Option Value
  inner? : ν → Option (List Inner)
  innerPath : Inner → List String
  innerPut : Inner → Value → Value
  /-- The value in a record, and the record with another one. -/
  get : κ → Value
  set : Value → κ → κ
  /-- A setting of the value as one of the record, and what a node sets in the record. -/
  inject : Inner → σ
  sets : ν → Option (List σ)
  laidOver : LaidOver read inner? innerPath innerPut (get default)
  get_set (value : Value) (config : κ) : get (set value config) = value
  path_inject (s : Inner) : path (inject s) = key :: innerPath s
  put_inject (s : Inner) (config : κ) :
    put (inject s) config = set (innerPut s (get config)) config
  sets_eq (node : ν) : sets node = (inner? node).map fun settings => settings.map inject

namespace Part

variable {path : σ → List String} {put : σ → κ → κ} {default : κ}

/-- A field that holds one value, which is set as a whole. -/
def leaf {α : Type} (key : String) (read : ν → Option α) (get : κ → α) (inject : α → σ)
    (hpath : ∀ value, path (inject value) = [key])
    (hget : ∀ value config, get (put (inject value) config) = value) :
    Part ν path put default where
  key
  read
  inner? node := (read node).map fun value => [value]
  innerPath _ := []
  innerPut value _ := value
  get
  set value := put (inject value)
  inject
  sets := Schema.leaf read inject
  laidOver := .whole
  get_set := hget
  path_inject := hpath
  put_inject _ _ := rfl
  sets_eq node := by cases h : read node <;> simp [Schema.leaf, h]

/-- A field that holds a record with a schema of its own, whose fields are set one by one. -/
def table [Document ν] {ρ τ : Type} {schema : Schema ν ρ} {read : ν → Option τ}
    {innerPath : ρ → List String} {innerPut : ρ → τ → τ} (key : String) (get : κ → τ)
    (set : τ → κ → κ) (inject : ρ → σ)
    (h : LaidOver read schema.settings? innerPath innerPut (get default))
    (hget : ∀ value config, get (set value config) = value)
    (hpath : ∀ s, path (inject s) = key :: innerPath s)
    (hput : ∀ s config, put (inject s) config = set (innerPut s (get config)) config) :
    Part ν path put default where
  key
  read
  inner? := schema.settings?
  innerPath
  innerPut
  get
  set
  inject
  sets := Schema.table schema inject
  laidOver := h
  get_set := hget
  path_inject := hpath
  put_inject := hput
  sets_eq _ := rfl

/-- What a schema says about the field. -/
def entry (part : Part ν path put default) : String × (ν → Option (List σ)) :=
  (part.key, part.sets)

/-- The field of a record that has some fields, or its default. -/
def read? (part : Part ν path put default) (fields : Fields ν) : Option part.Value :=
  fields.optional part.key (part.get default) part.read

theorem read?_of_absent (part : Part ν path put default) {fields : Fields ν}
    (h : fields.lookup part.key = none) : part.read? fields = some (part.get default) := by
  rw [read?, Fields.optional, h]

theorem read?_of_lookup (part : Part ν path put default) {fields : Fields ν} {node : ν}
    (h : fields.lookup part.key = some node) : part.read? fields = part.read node := by
  rw [read?, Fields.optional, h]

theorem read?_cons_of_ne (part : Part ν path put default) {field : String × ν} (fields : Fields ν)
    (h : part.key ≠ field.1) : part.read? (field :: fields) = part.read? fields := by
  rw [read?, Fields.optional, lookup_cons_ite, if_neg h]
  rfl

/-- Paths of what the field sets start with its key, and differ. -/
theorem named (part : Part ν path put default) {node : ν} {settings : List σ}
    (h : part.sets node = some settings) :
    (settings.map path).Nodup ∧ ∀ s ∈ settings, (path s).head? = some part.key := by
  rw [part.sets_eq] at h
  obtain ⟨inner, hinner, rfl⟩ := Option.map_eq_some_iff.mp h
  have hmap : (inner.map part.inject).map path =
      (inner.map part.innerPath).map (part.key :: ·) := by
    rw [List.map_map, List.map_map]
    exact List.map_congr_left fun s _ => part.path_inject s
  refine ⟨?_, fun s hs => ?_⟩
  · rw [hmap]
    exact (part.laidOver.nodup_path hinner).map List.cons_injective
  · obtain ⟨inner, -, rfl⟩ := List.mem_map.mp hs
    rw [part.path_inject, List.head?_cons]

/-- A setting of the field reaches its value. -/
theorem get_put_inject (part : Part ν path put default) (s : part.Inner) (config : κ) :
    part.get (put (part.inject s) config) = part.innerPut s (part.get config) := by
  rw [part.put_inject, part.get_set]

theorem get_foldr_inject (part : Part ν path put default) (inner : List part.Inner) (config : κ) :
    part.get ((inner.map part.inject).foldr put config) =
      inner.foldr part.innerPut (part.get config) := by
  induction inner with
  | nil => rfl
  | cons s rest ih =>
    rw [List.map_cons, List.foldr_cons, part.get_put_inject, ih, List.foldr_cons]

end Part

/-! ## Records -/

/-- A record is read part by part. It is known from its parts, each of them is set without the
others, and whatever can be set is set in one of them. -/
structure Assembled [Document ν] {path : σ → List String} {put : σ → κ → κ} {default : κ}
    (schema : Schema ν σ) (parts : List (Part ν path put default)) (read? : ν → Option κ) : Prop
    where
  schema_eq : schema = parts.map Part.entry
  nodup : schema.keys.Nodup
  read?_iff (node : ν) (config : κ) : read? node = some config ↔
    ∃ fields, Document.record? schema.keys node = some fields ∧
      ∀ part ∈ parts, part.read? fields = some (part.get config)
  ext (a b : κ) : (∀ part ∈ parts, part.get a = part.get b) → a = b
  cover (s : σ) : ∃ part ∈ parts, ∃ inner, part.inject inner = s
  get_set_of_ne : ∀ part ∈ parts, ∀ other ∈ parts, other.key ≠ part.key → ∀ value config,
    other.get (part.set value config) = other.get config

namespace Assembled

variable [Document ν] {schema : Schema ν σ} {path : σ → List String} {put : σ → κ → κ}
  {default : κ} {parts : List (Part ν path put default)} {read? : ν → Option κ}

theorem keys_eq (h : Assembled schema parts read?) : schema.keys = parts.map Part.key := by
  rw [Schema.keys, h.schema_eq, List.map_map]
  rfl

theorem lookup_key (h : Assembled schema parts read?) {part : Part ν path put default}
    (hpart : part ∈ parts) : schema.lookup part.key = some part.sets := by
  rw [lookup_eq_some_iff_of_nodup h.nodup, h.schema_eq]
  exact List.mem_map_of_mem (f := Part.entry) hpart

theorem named (h : Assembled schema parts read?) : schema.Named path := by
  intro key sets hmem node settings hsets
  rw [h.schema_eq] at hmem
  obtain ⟨part, -, hentry⟩ := List.mem_map.mp hmem
  cases hentry
  exact part.named hsets

/-- A part is the only one with its key. -/
theorem eq_of_key (h : Assembled schema parts read?) {part other : Part ν path put default}
    (hpart : part ∈ parts) (hother : other ∈ parts) (hkey : other.key = part.key) :
    other = part :=
  List.inj_on_of_nodup_map (h.keys_eq ▸ h.nodup) hother hpart hkey

/-- A setting of one part leaves the others alone. -/
theorem get_put_inject_of_ne (h : Assembled schema parts read?)
    {part other : Part ν path put default} (hpart : part ∈ parts) (hother : other ∈ parts)
    (hkey : other.key ≠ part.key) (s : part.Inner) (config : κ) :
    other.get (put (part.inject s) config) = other.get config := by
  rw [part.put_inject, h.get_set_of_ne part hpart other hother hkey]

theorem get_foldr_inject_of_ne (h : Assembled schema parts read?)
    {part other : Part ν path put default} (hpart : part ∈ parts) (hother : other ∈ parts)
    (hkey : other.key ≠ part.key) (inner : List part.Inner) (config : κ) :
    other.get ((inner.map part.inject).foldr put config) = other.get config := by
  induction inner with
  | nil => rfl
  | cons s rest ih =>
    rw [List.map_cons, List.foldr_cons, h.get_put_inject_of_ne hpart hother hkey, ih]

/-- Settings with different paths are of one part, where they can be put in in either order, or of
two parts. -/
theorem put_comm (h : Assembled schema parts read?) (s t : σ) (config : κ)
    (hpath : path s ≠ path t) : put s (put t config) = put t (put s config) := by
  obtain ⟨part, hpart, s, rfl⟩ := h.cover s
  obtain ⟨other, hother, t, rfl⟩ := h.cover t
  refine h.ext _ _ fun third hthird => ?_
  by_cases hkey : third.key = part.key
  · obtain rfl := h.eq_of_key hpart hthird hkey
    by_cases hsame : other.key = third.key
    · obtain rfl := h.eq_of_key hthird hother hsame
      have hinner : other.innerPath s ≠ other.innerPath t := by
        intro hpaths
        rw [other.path_inject, other.path_inject, hpaths] at hpath
        exact hpath rfl
      simp only [Part.get_put_inject, other.laidOver.put_comm s t _ hinner]
    · rw [third.get_put_inject, h.get_put_inject_of_ne hother hthird (Ne.symm hsame),
        h.get_put_inject_of_ne hother hthird (Ne.symm hsame), third.get_put_inject]
  · by_cases hsame : third.key = other.key
    · obtain rfl := h.eq_of_key hother hthird hsame
      rw [h.get_put_inject_of_ne hpart hthird hkey, third.get_put_inject, third.get_put_inject,
        h.get_put_inject_of_ne hpart hthird hkey]
    · rw [h.get_put_inject_of_ne hpart hthird hkey, h.get_put_inject_of_ne hother hthird hsame,
        h.get_put_inject_of_ne hother hthird hsame, h.get_put_inject_of_ne hpart hthird hkey]

/-- A field that is known, in front of fields without its key: the part is read from it, and the
others from the rest. -/
theorem read?_cons_iff (h : Assembled schema parts read?) {part : Part ν path put default}
    (hpart : part ∈ parts) {node : ν} {fields : Fields ν}
    (habsent : fields.lookup part.key = none) (config : κ) :
    (∀ other ∈ parts, other.read? ((part.key, node) :: fields) = some (other.get config)) ↔
      ∃ inner, part.inner? node = some inner ∧ ∃ rest : κ,
        (∀ other ∈ parts, other.read? fields = some (other.get rest)) ∧
          (inner.map part.inject).foldr put rest = config := by
  have hlookup : ((part.key, node) :: fields).lookup part.key = some node := by
    rw [lookup_cons_ite, if_pos rfl]
  constructor
  · intro hall
    have hvalue := hall part hpart
    rw [part.read?_of_lookup hlookup, part.laidOver.read_eq] at hvalue
    obtain ⟨inner, hinner, hvalue⟩ := Option.map_eq_some_iff.mp hvalue
    refine ⟨inner, hinner, part.set (part.get default) config, fun other hother => ?_,
      h.ext _ _ fun other hother => ?_⟩
    -- The record before this field: the part is still the default one, the others are as they are.
    · by_cases hkey : other.key = part.key
      · obtain rfl := h.eq_of_key hpart hother hkey
        rw [other.read?_of_absent habsent, other.get_set]
      · rw [h.get_set_of_ne part hpart other hother hkey, ← hall other hother,
          other.read?_cons_of_ne fields hkey]
    · by_cases hkey : other.key = part.key
      · obtain rfl := h.eq_of_key hpart hother hkey
        rw [other.get_foldr_inject, other.get_set, hvalue]
      · rw [h.get_foldr_inject_of_ne hpart hother hkey,
          h.get_set_of_ne part hpart other hother hkey]
  · rintro ⟨inner, hinner, rest, hrest, rfl⟩ other hother
    by_cases hkey : other.key = part.key
    · obtain rfl := h.eq_of_key hpart hother hkey
      have hdefault := hrest other hother
      rw [other.read?_of_absent habsent, Option.some.injEq] at hdefault
      rw [other.read?_of_lookup hlookup, other.laidOver.read_eq, hinner, Option.map_some, hdefault,
        other.get_foldr_inject]
    · rw [other.read?_cons_of_ne fields hkey, hrest other hother,
        h.get_foldr_inject_of_ne hpart hother hkey]

/-- The known fields are read as the default with their settings put in. -/
theorem read?_filter_iff (h : Assembled schema parts read?) (fields : List (String × ν))
    (hnodup : ((fields.map Prod.fst).filter schema.keys.contains).Nodup) (config : κ) :
    (∀ part ∈ parts, part.read? (fields.filter fun field => schema.keys.contains field.1) =
        some (part.get config)) ↔
      ∃ settings, fields.mapM schema.fieldSets? = some settings ∧
        settings.flatten.foldr put default = config := by
  induction fields generalizing config with
  | nil =>
    constructor
    · exact fun hall => ⟨[], rfl, h.ext _ _ fun part hpart => Option.some.inj (hall part hpart)⟩
    · rintro ⟨settings, hsettings, rfl⟩ part -
      cases hsettings
      rfl
  | cons field rest ih =>
    obtain ⟨key, node⟩ := field
    rw [List.map_cons] at hnodup
    simp only [List.mapM_cons, Option.bind_eq_bind, Option.bind_eq_some_iff, Option.pure_def,
      Option.some.injEq]
    by_cases hkey : key ∈ schema.keys
    · have hcontains : schema.keys.contains key = true := List.contains_iff_mem.mpr hkey
      rw [List.filter_cons_of_pos hcontains, List.nodup_cons] at hnodup
      rw [List.filter_cons_of_pos (by exact hcontains)]
      rw [h.keys_eq] at hkey
      obtain ⟨part, hpart, rfl⟩ := List.mem_map.mp hkey
      have habsent :
          (rest.filter fun field => schema.keys.contains field.1).lookup part.key = none := by
        refine lookup_eq_none_of_notMem ?_
        rw [Fields.map_fst_filter]
        exact hnodup.1
      have hsets : schema.fieldSets? (part.key, node) =
          (part.inner? node).map fun settings => settings.map part.inject := by
        simp only [Schema.fieldSets?, h.lookup_key hpart, part.sets_eq]
      rw [h.read?_cons_iff hpart habsent, hsets]
      simp only [ih hnodup.2]
      constructor
      · rintro ⟨inner, hinner, _, ⟨settings, hsettings, rfl⟩, rfl⟩
        refine ⟨_, ⟨inner.map part.inject, ?_, settings, hsettings, rfl⟩, ?_⟩
        · rw [hinner, Option.map_some]
        · rw [List.flatten_cons, List.foldr_append]
      · rintro ⟨_, ⟨first, hfirst, settings, hsettings, rfl⟩, rfl⟩
        obtain ⟨inner, hinner, rfl⟩ := Option.map_eq_some_iff.mp hfirst
        refine ⟨inner, hinner, _, ⟨settings, hsettings, rfl⟩, ?_⟩
        rw [List.flatten_cons, List.foldr_append]
    · have hcontains : ¬ schema.keys.contains key = true := by
        rwa [List.contains_iff_mem]
      have hsets : schema.fieldSets? (key, node) = some [] := by
        simp only [Schema.fieldSets?, lookup_eq_none_of_notMem hkey]
      rw [List.filter_cons_of_neg hcontains] at hnodup
      rw [List.filter_cons_of_neg (by exact hcontains), ih hnodup]
      simp [hsets]

theorem known_iff (h : Assembled schema parts read?) (fields : List (String × ν)) (config : κ) :
    (∃ known, Fields.known schema.keys fields = some known ∧
        ∀ part ∈ parts, part.read? known = some (part.get config)) ↔
      ∃ settings, schema.fieldSettings? fields = some settings ∧
        settings.foldr put default = config := by
  simp only [Fields.known, Schema.fieldSettings?, Fields.map_fst_filter]
  split
  · next hnodup =>
    simp only [Option.some.injEq, exists_eq_left', h.read?_filter_iff fields hnodup,
      Option.map_eq_some_iff, exists_exists_and_eq_and]
  · simp only [reduceCtorEq, false_and, exists_false]

/-- A record is its default with what its fields set put in. -/
theorem laidOver [LawfulDocument ν] (h : Assembled schema parts read?) :
    LaidOver read? schema.settings? path put default where
  read_eq node := by
    refine Option.ext fun config => ?_
    rw [h.read?_iff, Document.record?_eq h.nodup, Schema.settings?]
    cases Document.fields? schema.keys node with
    | none => simp
    | some fields =>
      rw [Option.bind_some, Option.bind_some, Option.map_eq_some_iff]
      exact h.known_iff fields config
  nodup_path := Schema.nodup_path h.named
  put_comm := h.put_comm

end Assembled

end ReleaseGate
